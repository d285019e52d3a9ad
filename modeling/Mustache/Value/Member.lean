import Mustache.Text.Digit
import Mustache.Value

set_option autoImplicit false

namespace Mustache

def indexBelow (size : Nat) (name : String) : Except HostFault (Option Nat) :=
  match decimalNumber? name.toList with
  | none => .ok none
  | some index =>
      if digitLimit < name.length then .error .tooManyDigits
      else if index < size then .ok (some index) else .ok none

def isHiddenName (name : String) : Bool :=
  name.toList.head? = some '_'

def hasMember (size : Nat) (name : String) : Except HostFault Bool :=
  if name = "length" then .ok true else (indexBelow size name).map Option.isSome

namespace Value

def publicAttribute? (name : String) (value : Value) : Option Value :=
  if isHiddenName name then none else value.attribute? name

def hasKey (name : String) : Value → Except HostFault Bool
  | map entries => .ok (valueAt? (.str name) entries).isSome
  | list items | tuple items => hasMember items.length name
  -- Texts, numbers and missing values have no keys.
  | value => .ok (value.publicAttribute? name).isSome

def hasOwnMember (name : String) : Value → Except HostFault Bool
  | str s => hasMember s.length name
  | _ => .ok false

def sequenceMember (items : List Value) (name : String) : Except HostFault Value :=
  if name = "length" then .ok (.int items.length)
  else (indexBelow items.length name).map fun index => (index.bind (items[·]?)).getD null

def member (name : String) : Value → Except HostFault Value
  | map entries => .ok ((valueAt? (.str name) entries).getD null)
  | str s => sequenceMember (s.toList.map fun c => .str (String.singleton c)) name
  | list items | tuple items => sequenceMember items name
  | value => .ok ((value.publicAttribute? name).getD null)

end Value

end Mustache
