import Mustache.Fault
import Mustache.Files.Selection

set_option autoImplicit false

namespace Mustache

def insertText (text : String) : List String → List String
  | [] => [text]
  | first :: rest =>
      if text < first then text :: first :: rest
      else if text = first then first :: rest
      else first :: insertText text rest

def sortTexts (texts : List String) : List String :=
  texts.foldr insertText []

def endsWith (ending text : String) : Bool :=
  ending.toList.isSuffixOf text.toList

structure FileSearch where
  disk : Disk
  bases : List Path
  encoding : Encoding := .utf8
  extension : String := ".mustache"

namespace FileSearch

def candidates (search : FileSearch) (name : String) : List String :=
  if search.extension = "" ∨ endsWith search.extension name then [name]
  else [name, name ++ search.extension]

def places (search : FileSearch) (name : String) : List Path :=
  search.bases.flatMap fun base => (search.candidates name).map base.join

def find? (search : FileSearch) (name : String) :
    Except Refusal (Option (Path × List UInt8)) :=
  search.disk.firstFile? (search.places name)

def selection? (search : FileSearch) : Option Selection :=
  -- Wildcards count in the extension.
  Selection.ofText? ("*" ++ search.extension)

def namesBelow (search : FileSearch) (base : Path) : Except HostFault (List String) :=
  match search.disk.place? base with
  | .error refusal => .error (.file refusal)
  -- A base that is no folder has no names.
  | .ok none | .ok (some ⟨_, .file _⟩) => .ok []
  | .ok (some place) =>
      match search.selection? with
      | none => .error .badPattern
      | some selection =>
          match selection.find place with
          | .error refusal => .error (.file refusal)
          | .ok found => .ok (found.map Found.text)

def names (search : FileSearch) : Except HostFault (List String) := do
  let found ← search.bases.mapM search.namesBelow
  .ok (sortTexts found.flatten)

end FileSearch

end Mustache
