import Mustache.Number.Shortest
import Mustache.Text.Digit
import Mustache.Text.Quoted
import Mustache.Value

set_option autoImplicit false

namespace Mustache

namespace Value

def wholeText (n : Int) : Except HostFault String :=
  if fitsDigits n then .ok (toString n) else .error .tooManyDigits

mutual

def literal : Value → Except HostFault String
  | null => .ok "None"
  | bool b => .ok (if b then "True" else "False")
  | int n => wholeText n
  | float x => .ok x.text
  | str s => .ok (quoted s)
  | bytes content => .ok (quotedBytes content)
  | list items => do return "[" ++ (← literalItems items) ++ "]"
  | tuple items => do
      return "(" ++ (← literalItems items) ++ (if items.length = 1 then ",)" else ")")
  | map entries => do return "\x7b" ++ (← literalEntries entries) ++ "\x7d"
  | object _ _ _ text => .ok text
  | callable f => .ok ("<" ++ f.typeName ++ ">")
  | loader source => .ok ("<" ++ source.typeName ++ ">")
  | chain views => do
      return s!"<Context depth={views.length - 1} view=" ++ (← literalInnermost views) ++ ">"

def literalInnermost : List Value → Except HostFault String
  | [] => .ok ""
  | view :: _ => literal view

def literalItems : List Value → Except HostFault String
  | [] => .ok ""
  | [item] => literal item
  | item :: rest => do return (← literal item) ++ ", " ++ (← literalItems rest)

def literalEntry : Value × Value → Except HostFault String
  | (key, value) => do return (← literal key) ++ ": " ++ (← literal value)

def literalEntries : List (Value × Value) → Except HostFault String
  | [] => .ok ""
  | [entry] => literalEntry entry
  | entry :: rest => do return (← literalEntry entry) ++ ", " ++ (← literalEntries rest)

end

def text : Value → Except HostFault String
  | str s => .ok s
  | value => literal value

mutual

/-- The text of a value in output. Truth values are in lower case, whole numbers have no decimals,
and the items of a sequence are joined, missing ones being empty. -/
def display : Value → Except HostFault String
  | bool b => .ok (if b then "true" else "false")
  | float .notANumber => .ok "NaN"
  | float (.infinite negative) => .ok (if negative then "-Infinity" else "Infinity")
  -- The largest floating-point number has far less digits than are written.
  | float x => .ok (match x.toInt? with
      | some n => toString n
      | none => x.text)
  | list items => displayItems items
  | tuple items => displayItems items
  | value => value.text

def displayItems : List Value → Except HostFault String
  | [] => .ok ""
  | [null] => .ok ""
  | null :: rest => do return "," ++ (← displayItems rest)
  | [item] => display item
  | item :: rest => do return (← display item) ++ "," ++ (← displayItems rest)

end

end Value

end Mustache
