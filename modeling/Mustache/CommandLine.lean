import Mustache.CommandLine.Arguments
import Mustache.Json
import Mustache.Render

set_option autoImplicit false

namespace Mustache.CommandLine

def usageText : String :=
  "usage: stache [-h] [--data DATA] [--partials PARTIALS] [--tags TAGS] [--output OUTPUT] " ++
    "[--verbose] template\n"

/-- What a run leaves behind. The file that it wrote, if it wrote one, is on the disk. -/
structure Outcome where
  exitCode : Nat
  stdout : String := ""
  stderr : String := ""
  disk : Disk
  written : Option Path := none

/-- What runs are not followed into: calls inside each other beyond the depth that is given, and
data with half of a character alone. -/
inductive Gap where
  | depth
  | loneHalf
  deriving DecidableEq, Repr

/-- How a run ends: with the usage text, with an outcome, by a failure that it does not tell in a
message of its own, or where it is not followed. -/
inductive Result where
  | usage (exitCode : Nat)
  | finished (outcome : Outcome)
  | broken (fault : HostFault)
  | untold (gap : Gap)

def sourceTitle (name : Option String) : String :=
  (nonEmpty? name).getD "<string>"

def logLine : Event → Option String
  | .treeFound name _ _ =>
      some ("DEBUG stache.environment.core: Template cache hit for " ++ sourceTitle name)
  | .treeMissing name source _ =>
      some (s!"DEBUG stache.environment.core: Template cache miss; parsing {sourceTitle name} " ++
        s!"({source.length} chars)")
  | .noProvider name =>
      some ("DEBUG stache.renderer: No partials provider for partial " ++ quoted name)
  | .partialMissing name none =>
      some ("DEBUG stache.renderer: Partial " ++ quoted name ++ " not found")
  | .partialMissing name (some reason) =>
      some ("DEBUG stache.renderer: Partial " ++ quoted name ++ " not found: " ++ reason)
  | .fileMissing name paths =>
      some ("DEBUG stache.environment.loaders: Template " ++ quoted name ++ " not found in [" ++
        String.intercalate ", " (paths.map fun path => "PosixPath(" ++ quoted path ++ ")") ++ "]")
  | .sectionLambda opener _ _ _ _ =>
      some ("DEBUG stache.renderer: Calling lambda section " ++ quoted opener.value)
  | .called _ | .scopeRead _ | .partialOpened _ | .partialClosed => none

def logText (log : List Event) : String :=
  String.join ((log.reverse.filterMap logLine).map (· ++ "\n"))

inductive Failure where
  | unreadable (path : Path) (refusal : Refusal)
  | undecodable (content : List UInt8)
  | badData (text : String)
  | loneHalf
  | fault (fault : Fault)

/-- What a run takes from its host: how arguments are read, and the texts of failures that are told
in the host's words. -/
structure Host where
  arguments : ArgumentRules
  errorText : Failure → String

/-- How a failure ends a run that leaves no message. -/
def Failure.escape? : Failure → Option Result
  -- The system cannot use such a path, and the error is not one that is told.
  | unreadable _ .unusable | fault (.host (.file .unusable)) => some (.broken (.file .unusable))
  | fault (.host (.file _)) | fault (.host .undecodable) => none
  | fault (.host trouble) => some (.broken trouble)
  | fault .exhausted => some (.untold .depth)
  | loneHalf => some (.untold .loneHalf)
  | _ => none

def Failure.message (host : Host) (failure : Failure) : String :=
  let inHostsWords := "stache: " ++ host.errorText failure
  match failure with
  | fault cause => (cause.report?.map Report.compact).getD inHostsWords
  | _ => inHostsWords

def readFile (disk : Disk) (path : String) : Except Failure String :=
  match disk.read (.ofText path) with
  | .error refusal => .error (.unreadable (.ofText path) refusal)
  | .ok content =>
      match decodeText? .utf8 content with
      | some text => .ok text
      | none => .error (.undecodable content)

def viewOf (text : String) : Except Failure Value :=
  match Json.read text with
  | .ok value => .ok value
  | .error .notJson => .error (.badData text)
  | .error .tooManyDigits => .error (.fault (.host .tooManyDigits))
  | .error .loneHalf => .error .loneHalf

def dataText (disk : Disk) (stdin path : String) : Except Failure String :=
  if path = "-" then .ok stdin else readFile disk path

def readView (disk : Disk) (stdin : String) : GivenData → Except Failure Value
  | .nothing => .ok .null
  | .emptied => .error (.fault (.host .wrongType))
  | .path path => dataText disk stdin path >>= viewOf

def partialsFolder (options : Options) : Path :=
  match nonEmpty? options.partials with
  | some folder => .ofText folder
  | none => (Path.ofText options.template).parent

def engineFor (options : Options) (disk : Disk) : Except Fault Engine :=
  let engine : Engine :=
    { cache := .keepFirst 0
      loader := .loader (.files { disk, bases := [partialsFolder options] }) }
  match nonEmpty? options.tags with
  | none => .ok engine
  | some tags => engine.withTags (.str tags)

def renderedText (depth : Nat) (options : Options) (disk : Disk) (stdin : String) :
    Except Failure String × List Event :=
  match readFile disk options.template with
  | .error failure => (.error failure, [])
  | .ok source =>
      match readView disk stdin options.data with
      | .error failure => (.error failure, [])
      | .ok view =>
          match engineFor options disk with
          | .error cause => (.error (.fault cause), [])
          | .ok engine =>
              let rendering : Action String := do
                let template ← engine.template (.str source)
                  (some (Path.ofText options.template).name) .null
                engine.renderTemplate depth template view .null []
              match rendering { caches := [{}] } with
              | (.ok text, session) => (.ok text, session.log)
              | (.error cause, session) => (.error (.fault cause), session.log)

def deliver (options : Options) (disk : Disk) (log : List Event) (text : String) : Result :=
  let logged := if options.verbose then logText log else ""
  match nonEmpty? options.output with
  | none => .finished { exitCode := 0, stdout := text, stderr := logged, disk }
  | some output =>
      match disk.write (.ofText output) text.toUTF8.toList with
      | .error refusal => .broken (.file refusal)
      | .ok disk =>
          let note := if options.verbose then "DEBUG stache.cli: Wrote " ++ output ++ "\n" else ""
          .finished
            { exitCode := 0, stderr := logged ++ note, disk, written := some (.ofText output) }

def runOptions (host : Host) (depth : Nat) (options : Options) (disk : Disk) (stdin : String) :
    Result :=
  match renderedText depth options disk stdin with
  | (.ok text, log) => deliver options disk log text
  | (.error failure, log) =>
      match failure.escape? with
      | some result => result
      | none =>
          let logged := if options.verbose then logText log else ""
          .finished { exitCode := 1, stderr := logged ++ failure.message host ++ "\n", disk }

def run (host : Host) (depth : Nat) (args : List String) (disk : Disk) (stdin : String) : Result :=
  match Arguments.read host.arguments args with
  | .invalid => .usage 2
  -- Delimiters in the help text have percent signs, which keep it from being written.
  | .help => .broken .unformattable
  | .options options => runOptions host depth options disk stdin

end Mustache.CommandLine
