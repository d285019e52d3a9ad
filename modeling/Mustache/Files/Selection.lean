import Mustache.Files
import Mustache.Files.Wildcard
import Mustache.Text.Occurrence

/-!
Selection of files and folders by a pattern for paths. Two stars stand for a folder and all folders
below it, a segment with a wildcard for the entries whose names it matches, and any other segment
for the entry of that name.
-/

set_option autoImplicit false

namespace Mustache

inductive Segment where
  | everyFolder
  | alike (pieces : List NamePiece)
  | named (name : String)

/-- What stands for all entries below the folder where it is looked for, and how they are found. -/
structure Selection where
  segments : List Segment
  foldersOnly : Bool := false

structure Found where
  path : List String
  place : Place

namespace Found

def text (found : Found) : String :=
  if found.path.isEmpty then "." else String.intercalate "/" found.path

mutual

def folders (path : List String) (above : List (String × Entry)) : Entry → List Found
  | .file _ => []
  | .folder entries =>
      ⟨path, ⟨above, .folder entries⟩⟩ :: foldersAmong path above (.folder entries) entries

def foldersAmong (path : List String) (above : List (String × Entry)) (parent : Entry) :
    List (String × Entry) → List Found
  | [] => []
  | (name, entry) :: rest =>
      folders (path ++ [name]) ((name, parent) :: above) entry ++
        foldersAmong path above parent rest

end

def children (found : Found) : List Found :=
  match found.place.entry with
  | .file _ => []
  | .folder entries => entries.map fun (name, entry) =>
      ⟨found.path ++ [name], found.place.enter name entry⟩

def isAlike (pieces : List NamePiece) (found : Found) : Bool :=
  NamePiece.standFor pieces (found.path.getLast?.getD "").toList

def go (found : Found) : Segment → Except Refusal (List Found)
  | .everyFolder => .ok (folders found.path found.place.above found.place.entry)
  | .alike pieces => .ok (found.children.filter (isAlike pieces))
  | .named name =>
      match found.place.step name with
      | .ok place => .ok [⟨found.path ++ [name], place⟩]
      -- A name that is too long cannot be looked for.
      | .error .tooLong => .error .tooLong
      | .error _ => .ok []

def goAll (foldersOnly : Bool) : List Segment → List Found → Except Refusal (List Found)
  | [], found => .ok found
  | segment :: rest, found => do
      let next := (← found.mapM (·.go segment)).flatten
      -- All segments but the last lead through folders.
      goAll foldersOnly rest
        (if foldersOnly || !rest.isEmpty then next.filter (·.place.entry.isFolder) else next)

end Found

namespace Segment

def ofText? (text : List Char) : Option Segment :=
  -- Two stars in a row stand for folders, and nothing stands beside them.
  if text = ['*', '*'] then some everyFolder
  else if occursIn ['*', '*'] text then none
  else if text.any fun c => c = '*' || c = '?' || c = '[' then
    some (alike (NamePiece.ofText text))
  else some (named (String.ofList text))

end Segment

namespace Selection

/-- The selection that a pattern describes, at any depth below a folder. A slash at the end selects
folders only. -/
def ofText? (pattern : String) : Option Selection := do
  let written := (cutAt '/' pattern.toList).filter fun text => text ≠ [] ∧ text ≠ ['.']
  let segments ← written.mapM Segment.ofText?
  some ⟨.everyFolder :: segments, pattern.toList.getLast? = some '/'⟩

def find (selection : Selection) (place : Place) : Except Refusal (List Found) :=
  Found.goAll selection.foldersOnly selection.segments [⟨[], place⟩]

end Selection

end Mustache
