import Mustache.Call

set_option autoImplicit false

namespace Mustache

def sourceOf (found : Value) : Action Value :=
  match found.iterate? with
  | none => throw (.host .wrongType)
  | some [source, _] => pure source
  | some _ => throw (.host .wrongCount)

def loadSource (loader : Value) (name : String) : Action Value := do
  sourceOf (← callAttribute Closure.call loader "get_source" [.str name])

def partialText (name : String) : Value → Action (Option String)
  | .null => do
      Action.record (.partialMissing name none)
      pure none
  | .str source => pure (some source)
  | value => throw (.invalidPartialSource name value.typeName)

def loadPartial (loader : Value) (name : String) : Action (Option String) := do
  match ← Action.attempt (loadSource loader name) with
  | .ok source => partialText name source
  -- A template that the loader does not find is a partial that does not exist.
  | .error (.notFound wanted missing) => do
      let report := (Fault.notFound wanted missing).report?
      Action.record (.partialMissing name (report.map Report.text))
      pure none
  | .error fault => throw fault

def resolvePartial (name : String) : Value → Action (Option String)
  | .null => do
      Action.record (.noProvider name)
      pure none
  | .map entries => partialText name ((Value.valueAt? (.str name) entries).getD .null)
  | partials =>
      if partials.canLoad then loadPartial partials name
      else match partials with
        | .callable f => do partialText name (← f.call [.str name])
        | _ => throw (.invalidPartials partials.typeName)

end Mustache
