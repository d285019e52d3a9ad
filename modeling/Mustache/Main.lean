import Mustache.CommandLine

set_option autoImplicit false

namespace Mustache.CommandLine

def hostHere : Host where
  arguments := .later
  errorText
    | .unreadable path _ => "cannot read " ++ path.text
    | .undecodable _ => "the file is not valid text"
    | .badData _ => "the data is not valid JSON"
    | _ => "a partial cannot be read"

/-- Sections, partials and the texts of lambdas nest no deeper than this. -/
def renderDepth : Nat := 1000000

partial def readEntry (place : IO.FS.DirEntry) : IO (Option Entry) := do
  try
    if ← place.path.isDir then
      let mut entries : List (String × Entry) := []
      for below in ← place.path.readDir do
        if let some entry ← readEntry below then
          entries := (below.fileName, entry) :: entries
      return some (.folder entries)
    else
      return some (.file (← IO.FS.readBinFile place.path).toList)
  catch _ => return none

def copyTo (disk : Disk) (path : Path) : IO Disk := do
  match ← readEntry ⟨← IO.currentDir, path.text⟩ with
  | some entry => return disk.mount path entry
  | none => return disk

def diskFor (options : Options) : IO Disk := do
  -- The folder of the output counts as empty where it is not used otherwise.
  let here ← IO.currentDir
  let mut disk : Disk := { home := (Path.ofText here.toString).segments }
  disk := disk.ensureFolder disk.home
  if let some output := nonEmpty? options.output then
    let output := Path.ofText output
    if ← (here / output.parent.text).isDir then
      disk := disk.mount output.parent (.folder [])
    if ← (here / output.text).isDir then
      disk := disk.mount output (.folder [])
  disk ← copyTo disk (partialsFolder options)
  disk ← copyTo disk (.ofText options.template)
  if let .path data := options.data then
    if data ≠ "-" then
      disk ← copyTo disk (.ofText data)
  return disk

def putOut (outcome : Outcome) : IO Unit := do
  IO.print outcome.stdout
  IO.eprint outcome.stderr
  if let some path := outcome.written then
    if let .ok content := outcome.disk.read path then
      IO.FS.writeBinFile path.text ⟨content.toArray⟩

def runHere (options : Options) : IO UInt32 := do
  let stdin ← if options.data = .path "-" then (← IO.getStdin).readToEnd else pure ""
  match runOptions hostHere renderDepth options (← diskFor options) stdin with
  | .finished outcome =>
      putOut outcome
      return outcome.exitCode.toUInt32
  | .usage code => return code.toUInt32
  | .broken _ =>
      IO.eprintln "stache: the run broke off"
      return 1
  | .untold .depth =>
      IO.eprintln "stache: too many calls inside each other"
      return 1
  | .untold .loneHalf =>
      IO.eprintln "stache: the data have half of a character"
      return 1

end Mustache.CommandLine

open Mustache.CommandLine in
def main (args : List String) : IO UInt32 := do
  match Arguments.read hostHere.arguments args with
  | .options options => runHere options
  | .help =>
      IO.eprintln "stache: the help text cannot be written"
      return 1
  | .invalid =>
      IO.eprint usageText
      return 2
