import Mustache.Text.Lines

set_option autoImplicit false

namespace Mustache

structure Path where
  absolute : Bool := false
  segments : List String := []
  deriving DecidableEq, Repr

namespace Path

def ofText (text : String) : Path where
  absolute := text.toList.head? = some '/'
  segments := ((cutAt '/' text.toList).filter fun segment =>
    segment ≠ [] ∧ segment ≠ ['.']).map String.ofList

def text (path : Path) : String :=
  let joined := String.intercalate "/" path.segments
  if path.absolute then "/" ++ joined
  else if path.segments.isEmpty then "." else joined

def join (base : Path) (name : String) : Path :=
  let below := ofText name
  if below.absolute then below else { base with segments := base.segments ++ below.segments }

def parent (path : Path) : Path :=
  { path with segments := path.segments.dropLast }

def name (path : Path) : String :=
  path.segments.getLast?.getD ""

end Path

inductive Entry where
  | file (content : List UInt8)
  | folder (entries : List (String × Entry))

inductive Refusal where
  | missing
  | folder
  | notFolder
  | tooLong
  | unusable
  deriving DecidableEq, Repr

def nameLimit : Nat := 255

def pathLimit : Nat := 4096

namespace Entry

def isFolder : Entry → Bool
  | file _ => false
  | folder _ => true

def child? (name : String) : Entry → Option Entry
  | file _ => none
  | folder entries => entries.lookup name

def putChild (name : String) (entry : Entry) : List (String × Entry) → List (String × Entry)
  | [] => [(name, entry)]
  | (n, e) :: rest => if n = name then (name, entry) :: rest else (n, e) :: putChild name entry rest

def insert (entry : Entry) : List String → Entry → Entry
  | [], _ => entry
  | segment :: rest, folder entries =>
      folder (putChild segment
        (insert entry rest ((entries.lookup segment).getD (folder []))) entries)
  | segment :: rest, file _ => folder [(segment, insert entry rest (folder []))]

mutual

def contents : Entry → List (List String)
  | file _ => []
  | folder entries => contentsOf entries

def contentsOf : List (String × Entry) → List (List String)
  | [] => []
  | (name, entry) :: rest => [name] :: (contents entry).map (name :: ·) ++ contentsOf rest

end

end Entry

/-- An entry, with the folders above it, nearest first, each with the name by which it was left. -/
structure Place where
  above : List (String × Entry) := []
  entry : Entry

namespace Place

def names (place : Place) : List String :=
  (place.above.map (·.1)).reverse

def enter (place : Place) (name : String) (child : Entry) : Place :=
  ⟨(name, place.entry) :: place.above, child⟩

def step (place : Place) (segment : String) : Except Refusal Place :=
  if !place.entry.isFolder then .error .notFolder
  else if segment = ".." then
    -- Above the first folder is that folder again.
    match place.above with
    | [] => .ok place
    | (_, folder) :: above => .ok ⟨above, folder⟩
  else if nameLimit < segment.utf8ByteSize then .error .tooLong
  else match place.entry.child? segment with
    | none => .error .missing
    | some child => .ok (place.enter segment child)

def follow (place : Place) (segments : List String) : Except Refusal Place :=
  segments.foldlM step place

end Place

/-- A tree of files, and the folder in it from which relative paths start. -/
structure Disk where
  root : Entry := .folder []
  home : List String := []

namespace Disk

def locate (disk : Disk) (path : Path) : Except Refusal Place :=
  -- No name holds the null character.
  if path.text.toList.contains '\x00' then .error .unusable
  else if pathLimit ≤ path.text.utf8ByteSize then .error .tooLong
  else (Place.mk [] disk.root).follow
    (if path.absolute then path.segments else disk.home ++ path.segments)

def place? (disk : Disk) (path : Path) : Except Refusal (Option Place) :=
  match disk.locate path with
  | .ok place => .ok (some place)
  -- Whether something stands at a path that is too long cannot be told.
  | .error .tooLong => .error .tooLong
  | .error _ => .ok none

def read (disk : Disk) (path : Path) : Except Refusal (List UInt8) := do
  match (← disk.locate path).entry with
  | .file content => .ok content
  | .folder _ => .error .folder

def firstFile? (disk : Disk) : List Path → Except Refusal (Option (Path × List UInt8))
  | [] => .ok none
  | path :: rest =>
      match disk.place? path with
      | .error refusal => .error refusal
      | .ok (some ⟨_, .file content⟩) => .ok (some (path, content))
      | .ok _ => disk.firstFile? rest

def ensureFolder (disk : Disk) (segments : List String) : Disk :=
  match (Place.mk [] disk.root).follow segments with
  | .ok _ => disk
  | .error _ => { disk with root := Entry.insert (.folder []) segments disk.root }

def mountFrom (entry : Entry) (place : List String) : List String → Disk → Disk
  | [], disk => { disk with root := Entry.insert entry place disk.root }
  | segment :: rest, disk =>
      mountFrom entry (if segment = ".." then place.dropLast else place ++ [segment]) rest
        (disk.ensureFolder place)

def mount (disk : Disk) (path : Path) (entry : Entry) : Disk :=
  mountFrom entry (if path.absolute then [] else disk.home) path.segments disk

def target (disk : Disk) (path : Path) : Except Refusal (List String) :=
  match disk.locate path with
  | .ok ⟨_, .folder _⟩ => .error .folder
  | .ok place => .ok place.names
  -- A new file needs its folder.
  | .error .missing => do
      let folder ← disk.locate path.parent
      .ok (folder.names ++ [path.name])
  | .error refusal => .error refusal

def write (disk : Disk) (path : Path) (content : List UInt8) : Except Refusal Disk := do
  let names ← disk.target path
  .ok { disk with root := Entry.insert (.file content) names disk.root }

end Disk

inductive Encoding where
  | utf8
  | latin1
  deriving DecidableEq, Repr

def Encoding.decode? : Encoding → List UInt8 → Option String
  | utf8, content => String.fromUTF8? ⟨content.toArray⟩
  | latin1, content => some (String.ofList (content.map fun byte => Char.ofNat byte.toNat))

def decodeText? (encoding : Encoding) (content : List UInt8) : Option String :=
  (encoding.decode? content).map fun text => String.ofList (unifyLineEnds text.toList)

end Mustache
