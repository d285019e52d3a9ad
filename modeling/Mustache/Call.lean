import Mustache.Expression
import Mustache.Loader
import Mustache.Value.Bytes

set_option autoImplicit false

namespace Mustache

def callDepth : Nat := 1000

def lookUpIn (call : Caller) (views : List Value) : Value → Action Value
  | .str name => do
      let value ← if name = "." then pure (Value.innermost views)
        else Action.ofHost (resolve name views)
      match value with
      | .callable f => call f (if f.takesView then [Value.innermost views] else [])
      | value => pure value
  -- Only texts are names.
  | name =>
      throw (.host (match name.canBeKey, name with
        | false, _ | _, .bytes _ => .wrongType
        | _, _ => .noAttribute))

namespace Closure

def callAttached (call : Caller) : Closure → List Value → Action Value
  | ofBytes function content, args => Action.ofHost (function.apply content args)
  | listNames loader, [] => do
      let names ← loader.list call
      pure (.list names)
  | getSource loader, [name] => loader.load call name
  | pushView views, [view] => pure (.chain (view :: views))
  | lookUpName views, [name] => lookUpIn call views name
  | _, _ => throw (.host .wrongArguments)

def callWithin : Nat → Caller
  | _, written code serial owner outer, args => code.call serial owner outer args
  | 0, _, _ => throw .exhausted
  | depth + 1, f, args => f.callAttached (callWithin depth) args

def call : Caller := callWithin callDepth

def callOnText (f : Closure) (text : String) (render : Value → Action Value) : Action Value :=
  let args := [.str text, .callable sectionRender]
  match f with
  | written code serial owner outer => code.call serial owner outer args (some render)
  | f => f.call args

end Closure

end Mustache
