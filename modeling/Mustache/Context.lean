import Mustache.Text.Cut
import Mustache.Value.Member
import Mustache.Value.Text

/-!
The chain of views that names resolve against. The innermost frame that answers a name gives its
value; a frame remembers what its lookups have found.
-/

set_option autoImplicit false

namespace Mustache

def isPath (name : String) : Bool :=
  name.toList.contains '.' && name.toList.head? ≠ some '.'

def segments (name : String) : List String :=
  (cutAt '.' name.toList).map String.ofList

namespace Value

def descend (value : Value) : List String → Except HostFault (Option Value)
  | [] => .ok none
  -- The value that holds the last segment has to have it as a key or as an own member.
  | [last] =>
      match value with
      | null => .ok none
      | _ => do
          if (← value.hasKey last) || (← value.hasOwnMember last) then
            return some (← value.member last)
          else return none
  | segment :: rest =>
      match value with
      | null => .ok none
      | _ => do descend (← value.member segment) rest

def answer? (name : String) (view : Value) : Except HostFault (Option Value) :=
  if isPath name then view.descend (segments name)
  else do
    if ← view.hasKey name then return some (← view.member name) else return none

end Value

def resolve (name : String) : List Value → Except HostFault Value
  | [] => .ok .null
  | view :: outer => do
      match ← view.answer? name with
      | some value => return value
      | none => resolve name outer

structure Frame where
  view : Value
  found : List (String × Value) := []

structure Context where
  frame : Frame
  outer : List Frame := []

namespace Context

def ofView : Value → Context
  -- A chain of views is a context already.
  | .chain (view :: outer) => ⟨⟨view, []⟩, outer.map fun view => ⟨view, []⟩⟩
  | view => ⟨⟨view, []⟩, []⟩

def push (context : Context) (view : Value) : Context :=
  ⟨⟨view, []⟩, context.frame :: context.outer⟩

def pop? (context : Context) : Option Context :=
  match context.outer with
  | [] => none
  | frame :: outer => some ⟨frame, outer⟩

def view (context : Context) : Value := context.frame.view

def views (context : Context) : List Value :=
  context.view :: context.outer.map (·.view)

/-- The value of a name, functions not called, and the context that remembers it. A single dot is
the innermost view. -/
def find (context : Context) (name : String) : Except HostFault (Value × Context) :=
  if name = "." then .ok (context.view, context)
  else match context.frame.found.lookup name with
    | some value => .ok (value, context)
    | none => do
        let value ← resolve name context.views
        return (value, { context with
          frame := { context.frame with found := (name, value) :: context.frame.found } })

def setKey? (context : Context) (key value : Value) : Option Context :=
  match context.view with
  | .map entries =>
      if key.canBeKey then
        -- What the frame has found before stays found.
        some { context with
          frame := { context.frame with view := .map (Value.putEntry key value entries) } }
      else none
  | _ => none

def describe (context : Context) : Except HostFault String :=
  (Value.chain context.views).literal

end Context

end Mustache
