import Mustache.Session
import Mustache.Similar
import Mustache.Text.Occurrence
import Mustache.Value.Order

set_option autoImplicit false

namespace Mustache

abbrev Caller := Closure → List Value → Action Value

def callAttribute (call : Caller) (value : Value) (member : String) (args : List Value) :
    Action Value :=
  match value.attribute? member with
  | some (.callable f) => call f args
  | some _ => throw (.host .wrongType)
  | none => throw (.host .noAttribute)

def Value.canLoad (value : Value) : Bool :=
  (value.attribute? "get_source").isSome

def foundAt (source : Value) (origin : Option String) : Value :=
  .tuple [source, (origin.map Value.str).getD .null]

def throwNotFound {α : Type} (name : Value) (missing : Missing) : Action α := do
  let text ← Action.ofHost name.text
  throw (.notFound text missing)

namespace FileSearch

def loadText (search : FileSearch) (name : String) : Action Value :=
  match search.find? name with
  | .error refusal => throw (.host (.file refusal))
  | .ok (some (path, content)) =>
      match decodeText? search.encoding content with
      | some source => pure (foundAt (.str source) (some path.text))
      | none => throw (.host .undecodable)
  | .ok none => do
      let paths := search.bases.map Path.text
      Action.record (.fileMissing name paths)
      throw (.notFound name (.directories paths))

def load (search : FileSearch) : Value → Action Value
  | .str name => search.loadText name
  -- Names that are no texts fail where they are first used as a text.
  | name =>
      if search.extension ≠ "" then
        throw (.host (match name with | .bytes _ => .wrongType | _ => .noAttribute))
      else if search.bases.isEmpty then throwNotFound name (.directories [])
      else throw (.host .wrongType)

end FileSearch

def sortedKeys (mapping : Value) : Except HostFault (List Value) :=
  match mapping with
  | .map entries =>
      match Value.sort? (entries.map (·.1)) with
      | some keys => .ok keys
      | none => .error .wrongType
  | _ => .error .noAttribute

def textsOf? : List Value → Option (List String)
  | [] => some []
  | .str s :: rest => (textsOf? rest).map (s :: ·)
  | _ :: _ => none

/-- What is told of the names that there are in place of a missing one: the closest, or all. -/
def missingName (name : Value) (keys : List Value) : Except HostFault Missing :=
  match name.iterate?, keys.mapM fun key => key.iterate?.map fun items => (key, items) with
  | some wanted, some candidates =>
      match closest? wanted candidates with
      | some similar => do return .names (some (← similar.text)) []
      | none =>
          match textsOf? keys with
          | some known => .ok (.names none known)
          | none => .error .wrongType
  | _, _ => .error .wrongType

def itemAt (items : List Value) (name : Value) : Except HostFault Value :=
  match name.wholeNumber? with
  | none => .error .wrongType
  | some index =>
      -- A negative index counts from the end.
      let place := if index < 0 then index + items.length else index
      if place < 0 then .error .outOfRange
      else match items[place.toNat]? with
        | some item => .ok item
        | none => .error .outOfRange

def entryOf (mapping name : Value) : Except HostFault (Option Value) :=
  match mapping with
  | .map entries =>
      if name.canBeKey then .ok (Value.valueAt? name entries) else .error .wrongType
  -- In place of a mapping a sequence or a text may hold a name, but it has an entry under an index
  -- only.
  | .list items | .tuple items =>
      if items.any name.equals then (itemAt items name).map some else .ok none
  | .str text =>
      match name with
      | .str part => if occursIn part.toList text.toList then .error .wrongType else .ok none
      | _ => .error .wrongType
  | .bytes content =>
      match name with
      | .bytes part => if occursIn part content then .error .wrongType else .ok none
      | name =>
          match name.wholeNumber? with
          | some n =>
              if n < 0 ∨ 255 < n then .error .wrongValue
              else if content.contains (UInt8.ofNat n.toNat) then
                (itemAt (content.map fun b => .int b.toNat) name).map some
              else .ok none
          | none => .error .wrongType
  | _ => .error .wrongType

def loadEntry (mapping name : Value) : Action Value :=
  match entryOf mapping name with
  | .error fault => throw (.host fault)
  | .ok (some source) => pure (foundAt source none)
  | .ok none =>
      match sortedKeys mapping >>= missingName name with
      | .error fault => throw (.host fault)
      | .ok missing => throwNotFound name missing

namespace Loader

variable (call : Caller) (name : Value)

mutual

def load : Loader → Action Value
  | names mapping => loadEntry mapping name
  | files search => search.load name
  | function f => do
      match ← call f [name] with
      | .null => throwNotFound name .unknown
      | .str source => pure (foundAt (.str source) (some "<function>"))
      | answer => pure answer
  | choice members => loadFirst members.length members

def loadFrom : Value → Action Value
  | .loader source => load source
  | value => callAttribute call value "get_source" [name]

def loadFirst (count : Nat) : List Value → Action Value
  | [] => throwNotFound name (.loaders count)
  | member :: rest => do
      match ← Action.attempt (loadFrom member) with
      | .ok found => pure found
      | .error (.notFound _ _) => loadFirst count rest
      | .error fault => throw fault

end

end Loader

def listedItems (answer : Value) : Action (List Value) :=
  match answer.iterate? with
  | none => throw (.host .wrongType)
  -- Each item is to be one of a set.
  | some items => if Value.canBeKeys items then pure items else throw (.host .wrongType)

namespace Loader

variable (call : Caller)

mutual

def list : Loader → Action (List Value)
  | names mapping => Action.ofHost (sortedKeys mapping)
  | files search => do
      let found ← Action.ofHost search.names
      pure (found.map .str)
  | function _ => throw (.host .noAttribute)
  | choice members => do
      let found ← listEach members
      match Value.sort? (Value.distinct found) with
      | some sorted => pure sorted
      | none => throw (.host .wrongType)

def listFrom : Value → Action (List Value)
  | .loader (.function _) => pure []
  | .loader source => list source
  | value =>
      if (value.attribute? "list_templates").isSome then do
        listedItems (← callAttribute call value "list_templates" [])
      -- A member that cannot list has nothing.
      else pure []

def listEach : List Value → Action (List Value)
  | [] => pure []
  | member :: rest => do
      let first ← listFrom member
      let others ← listEach rest
      pure (first ++ others)

end

end Loader

end Mustache
