import Mustache.Proofs.InStep

set_option autoImplicit false

namespace Mustache

namespace Action

def Preserve {α : Type} (related : Session → Session → Prop) (first second : Action α) : Prop :=
  ∀ s t : Session, related s t → (first s).1 = (second t).1 ∧ related (first s).2 (second t).2

end Action

structure ScopeShared (related : Session → Session → Prop) : Prop where
  scope {s t : Session} : related s t → s.scope = t.scope
  withScope {s t : Session} (scope : Option Scope) :
    related s t → related { s with scope } { t with scope }
  record {s t : Session} (event : Event) :
    related s t → related { s with log := event :: s.log } { t with log := event :: t.log }

namespace Action.Preserve

variable {related : Session → Session → Prop} {α β : Type}

theorem pure (value : α) : Preserve related (pure value) (pure value) :=
  fun _ _ start => ⟨rfl, start⟩

theorem throw (fault : Fault) : Preserve related (throw fault : Action α) (throw fault) :=
  fun _ _ start => ⟨rfl, start⟩

theorem bind {first second : Action α} {next next' : α → Action β}
    (preserve : Preserve related first second)
    (onward : ∀ value, Preserve related (next value) (next' value)) :
    Preserve related (first >>= next) (second >>= next') := by
  intro s t start
  have together := preserve s t start
  cases ran : first s with
  | mk outcome after =>
    cases ran' : second t with
    | mk outcome' after' =>
      rw [ran, ran'] at together
      obtain ⟨rfl, still⟩ := together
      cases outcome with
      | error fault =>
        rw [bind_of_error ran, bind_of_error ran']
        exact ⟨rfl, still⟩
      | ok value =>
        rw [bind_of_ok ran, bind_of_ok ran']
        exact onward value after after' still

theorem attempt {first second : Action α} {next next' : Except Fault α → Action β}
    (preserve : Preserve related first second)
    (onward : ∀ outcome, Preserve related (next outcome) (next' outcome)) :
    Preserve related (Action.attempt first >>= next) (Action.attempt second >>= next') := by
  intro s t start
  obtain ⟨outcome, still⟩ := preserve s t start
  change (next (first s).1 (first s).2).1 = (next' (second t).1 (second t).2).1 ∧
    related (next (first s).1 (first s).2).2 (next' (second t).1 (second t).2).2
  rw [← outcome]
  exact onward (first s).1 _ _ still

theorem getBind {next next' : Session → Action α}
    (onward : ∀ s t : Session, related s t → Preserve related (next s) (next' t)) :
    Preserve related (get >>= next) (get >>= next') :=
  fun s t start => onward s t start s t start

theorem ofExcept (outcome : Except Fault α) :
    Preserve related (Action.ofExcept outcome) (Action.ofExcept outcome) := by
  cases outcome with
  | ok value => exact .pure value
  | error fault => exact .throw fault

theorem ofHost (outcome : Except HostFault α) :
    Preserve related (Action.ofHost outcome) (Action.ofHost outcome) := by
  cases outcome with
  | ok value => exact .pure value
  | error fault => exact .throw (.host fault)

section Scopes

variable (shared : ScopeShared related) {first second : Action α}

include shared

theorem record (event : Event) :
    Preserve related (Action.record event) (Action.record event) :=
  fun _ _ start => ⟨rfl, shared.record event start⟩

theorem recordCall : Preserve related Action.recordCall Action.recordCall := by
  refine getBind fun s t start => ?_
  rw [shared.scope start]
  exact record shared _

theorem ask (field : ScopeField) : Preserve related field.ask field.ask := by
  refine getBind fun s t start => ?_
  rw [shared.scope start]
  exact bind (record shared _) fun _ => pure _

variable (preserve : Preserve related first second)

include preserve

theorem inScope (scope : Scope) :
    Preserve related (Action.inScope scope first) (Action.inScope scope second) := by
  intro s t start
  obtain ⟨outcome, still⟩ := preserve _ _ (shared.withScope (some scope) start)
  have restored := shared.withScope s.scope still
  refine ⟨outcome, ?_⟩
  change related { (first _).2 with scope := s.scope } { (second _).2 with scope := t.scope }
  rwa [← shared.scope start]

theorem inRender (engine : Engine) (name : Option String) :
    Preserve related (engine.inRender name first) (engine.inRender name second) := by
  refine getBind fun s t start => ?_
  rw [shared.scope start]
  cases t.scope with
  | none => exact inScope shared preserve _
  | some scope => exact preserve

theorem whileOpen (name : String) :
    Preserve related (Action.whileOpen name first) (Action.whileOpen name second) := by
  refine bind (record shared _) fun _ => ?_
  exact bind preserve fun value => bind (record shared _) fun _ => pure value

theorem inPartial (name : String) :
    Preserve related (Action.inPartial name first) (Action.inPartial name second) := by
  refine getBind fun s t start => ?_
  rw [shared.scope start]
  cases t.scope with
  | none => exact whileOpen shared preserve name
  | some scope =>
    refine bind (ofExcept _) fun _ => ?_
    exact whileOpen shared (inScope shared preserve (scope.child name)) name

end Scopes

theorem inStep (shared : ScopeShared related)
    (onShared : ∀ {α : Type} {step : Session.Shared → α × Session.Shared},
      Session.Shared.Taken step →
        Preserve related (Action.onShared step) (Action.onShared step)) :
    CatchInStep fun _ => Preserve related where
  pure := pure
  throw fault _ := throw fault
  bind := bind
  onShared := onShared
  record event _ := record shared event
  recordCall := recordCall shared
  ask := ask shared
  attempt preserve onward failed := attempt preserve fun outcome => by
    cases outcome with
    | ok value => exact onward value
    | error fault => exact failed fault (throw fault)

end Action.Preserve

end Mustache
