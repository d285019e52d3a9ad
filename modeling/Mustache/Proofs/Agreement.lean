import Mustache.Proofs.Preservation

set_option autoImplicit false

namespace Mustache

/-- Two sessions that agree apart from caches and logs, when the caches of the first are good. -/
structure Session.Agrees (good : List TreeCache → Prop) (first second : Session) : Prop where
  calls : first.calls = second.calls
  nextSerial : first.nextSerial = second.nextSerial
  scope : first.scope = second.scope
  context : first.context = second.context
  caches : good first.caches

theorem scopeShared_agrees (good : List TreeCache → Prop) :
    ScopeShared (Session.Agrees good) where
  scope agrees := agrees.scope
  withScope _ agrees := { agrees with scope := rfl }
  record _ agrees := { agrees with }

namespace Action

variable {good : List TreeCache → Prop} {α β : Type}

def Agree (good : List TreeCache → Prop) (first second : Action α) : Prop :=
  ∀ s t : Session, s.Agrees good t →
    (first s).1 = (second t).1 ∧ (first s).2.Agrees good (second t).2

namespace Agree

theorem pure (value : α) : Agree good (pure value) (pure value) :=
  Preserve.pure value

theorem throw (fault : Fault) :
    Agree good (throw fault : Action α) (throw fault) :=
  Preserve.throw fault

theorem bind {first second : Action α} {next next' : α → Action β}
    (agree : Agree good first second) (onward : ∀ value, Agree good (next value) (next' value)) :
    Agree good (first >>= next) (second >>= next') :=
  Preserve.bind agree onward

theorem record (event event' : Event) : Agree good (Action.record event) (Action.record event') :=
  fun _ _ agrees => ⟨rfl, { agrees with }⟩

section Around

variable {first second : Action α}

theorem inRender (engine : Engine) (name : Option String) (agree : Agree good first second) :
    Agree good (engine.inRender name first) (engine.inRender name second) :=
  Preserve.inRender (scopeShared_agrees good) agree engine name

theorem inPartial (name : String) (agree : Agree good first second) :
    Agree good (Action.inPartial name first) (Action.inPartial name second) :=
  Preserve.inPartial (scopeShared_agrees good) agree name

theorem inContext (context : Context) (agree : Agree good first second) :
    Agree good (Action.inContext context first) (Action.inContext context second) := by
  intro s t agrees
  obtain ⟨outcome, after⟩ :=
    agree { s with context } { t with context } { agrees with context := rfl }
  exact ⟨outcome, { after with context := agrees.context }⟩

theorem inFrame (view : Value) (agree : Agree good first second) :
    Agree good (Action.inFrame view first) (Action.inFrame view second) := by
  intro s t agrees
  have inside := agree.inContext (s.context.push view) s t agrees
  simp only [Action.inFrame, ← agrees.context]
  exact inside

end Around

theorem onShared (step : Session.Shared → α × Session.Shared) :
    Agree good (Action.onShared step) (Action.onShared step) := by
  intro s t agrees
  have same : s.shared = t.shared := by
    simp only [Session.shared, agrees.calls, agrees.nextSerial, agrees.context]
  unfold Action.onShared
  rw [same]
  exact ⟨rfl, rfl, rfl, agrees.scope, rfl, agrees.caches⟩

theorem inStep (good : List TreeCache → Prop) : CatchInStep fun _ => Agree good :=
  Preserve.inStep (scopeShared_agrees good) fun _ => onShared _

end Agree

end Action

end Mustache
