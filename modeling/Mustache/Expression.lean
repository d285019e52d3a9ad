import Mustache.Escape
import Mustache.Session

set_option autoImplicit false

namespace Mustache

/-- A call in progress of a written function: the activation that made the function, the object that
it belongs to, the arguments of the call that made it, the arguments as its body sees them, how
often it has been called, and for the lambda of a section how it renders text. -/
structure Activation where
  serial : Nat
  owner : Option Value
  outer : List Value
  args : List Value
  callCount : Nat
  render? : Option (Value → Action Value) := none

def ScopeField.read (scope : Option Scope) (field : ScopeField) : Value :=
  match scope with
  | none => .null
  | some scope =>
      match field with
      | templateName => (scope.templateName.map Value.str).getD .null
      | partialDepth => .int scope.partialDepth
      | partialStack => .list (scope.partialStack.map Value.str)
      | maxPartialDepth => (scope.maxPartialDepth.map Value.int).getD .null

def ScopeField.ask (field : ScopeField) : Action Value := do
  let session ← get
  Action.record (.scopeRead field)
  pure (field.read session.scope)

namespace Value

def lookUp (subject key : Value) : Except HostFault Value :=
  match subject, key with
  | map entries, _ =>
      if key.canBeKey then .ok ((valueAt? key entries).getD null) else .error .wrongType
  | subject, str name => .ok ((attribute? name subject).getD null)
  | _, _ => .ok null

def size? : Value → Option Nat
  | str s => some s.length
  | bytes content => some content.length
  | list items | tuple items => some items.length
  | map entries => some entries.length
  | _ => none

def partText : Value → Except HostFault String
  | null => .ok ""
  | value => value.display

end Value

namespace Expr

mutual

def eval (activation : Activation) : Expr → Action Value
  | const value => pure (value.renew activation.serial)
  | arg index => pure (activation.args[index]?.getD .null)
  | outerArg index => pure (activation.outer[index]?.getD .null)
  | self name =>
      pure ((activation.owner.bind (Value.attribute? name)).getD .null)
  | entry subject key => do
      let subject ← eval activation subject
      let key ← eval activation key
      Action.ofHost (subject.lookUp key)
  | concat parts => do
      let text ← evalParts activation parts
      pure (.str text)
  | count => pure (.int activation.callCount)
  | render text => do
      let text ← eval activation text
      match activation.render? with
      | some run => run text
      | none => throw (.host .wrongType)
  | upper text => do
      let value ← eval activation text
      let text ← Action.ofHost value.partText
      pure (.str (upperCase text))
  | length subject => do
      let subject ← eval activation subject
      match subject.size? with
      | some n => pure (.int n)
      | none => throw (.host .wrongType)
  | lambda code => do
      let session ← get
      set { session with nextSerial := session.nextSerial + 1 }
      pure (.callable
        (.written code session.nextSerial activation.owner activation.args))
  | scope field => field.ask
  | raise _ => throw (.host .raised)

def evalParts (activation : Activation) : List Expr → Action String
  | [] => pure ""
  | part :: rest => do
      let value ← eval activation part
      let text ← Action.ofHost value.partText
      let more ← evalParts activation rest
      pure (text ++ more)

end

end Expr

def Code.call (code : Code) (serial : Nat) (owner : Option Value) (outer args : List Value)
    (render? : Option (Value → Action Value) := none) : Action Value := do
  match code.bind? args with
  | none => throw (.host .wrongArguments)
  | some args =>
      -- Calls are counted by where the function is written and by the activation that made it.
      let identity := (code.site, serial)
      modify (Session.countCall · identity)
      let session ← get
      Action.record (.called session.scope)
      code.body.eval
        { serial, owner, outer, args, callCount := session.callCount identity, render? }

end Mustache
