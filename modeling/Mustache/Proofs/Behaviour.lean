import Mustache.Proofs.InStep

set_option autoImplicit false

namespace Mustache

/-- The later log is the earlier one with events on top, and of each of them something holds. -/
def Session.Extends (holds : Event → Prop) (s after : Session) : Prop :=
  ∃ happened, after.log = happened ++ s.log ∧ ∀ event ∈ happened, holds event

namespace Session.Extends

variable {holds : Event → Prop} {s between after : Session}

theorem of_eq (silent : after.log = s.log) : s.Extends holds after :=
  ⟨[], silent, by simp⟩

theorem trans (first : s.Extends holds between) (second : between.Extends holds after) :
    s.Extends holds after := by
  obtain ⟨earlier, grown, each⟩ := first
  obtain ⟨later, grownLater, eachLater⟩ := second
  refine ⟨later ++ earlier, ?_, List.forall_mem_append.2 ⟨eachLater, each⟩⟩
  rw [grownLater, grown, List.append_assoc]

end Session.Extends

namespace Action

variable {α β : Type} {holds : Event → Prop} {may : Fault → Prop}

structure Behaves (holds : Event → Prop) (may : Fault → Prop) (action : Action α) : Prop where
  logs (s : Session) : s.Extends holds (action s).2
  fails (s : Session) (fault : Fault) : (action s).1 = .error fault → may fault

namespace Behaves

theorem quiet {action : Action α} (silent : ∀ s, (action s).2.log = s.log)
    (fails : ∀ s fault, (action s).1 = .error fault → may fault) : Behaves holds may action :=
  ⟨fun s => .of_eq (silent s), fails⟩

theorem pure (value : α) : Behaves holds may (pure value) :=
  quiet (fun _ => rfl) fun _ _ failed => by cases failed

theorem throw {fault : Fault} (isSo : may fault) : Behaves holds may (throw fault : Action α) :=
  quiet (fun _ => rfl) fun _ _ failed => Except.error.inj failed ▸ isSo

theorem ofExcept {outcome : Except Fault α} (isSo : ∀ fault, outcome = .error fault → may fault) :
    Behaves holds may (Action.ofExcept outcome) := by
  cases outcome with
  | ok value => exact pure value
  | error fault => exact throw (isSo fault rfl)

theorem record {event : Event} (isSo : holds event) : Behaves holds may (Action.record event) :=
  ⟨fun _ => ⟨[event], rfl, by simpa using isSo⟩, fun _ _ failed => by cases failed⟩

theorem getBind {next : Session → Action α} (onward : ∀ s, Behaves holds may (next s)) :
    Behaves holds may (get >>= next) :=
  ⟨fun s => (onward s).logs s, fun s => (onward s).fails s⟩

theorem bind {action : Action α} {next : α → Action β} (behaves : Behaves holds may action)
    (onward : ∀ value, Behaves holds may (next value)) : Behaves holds may (action >>= next) := by
  suffices ∀ s, s.Extends holds ((action >>= next) s).2 ∧
      ∀ fault, ((action >>= next) s).1 = .error fault → may fault from
    ⟨fun s => (this s).1, fun s => (this s).2⟩
  intro s
  have before := behaves.logs s
  have fails := behaves.fails s
  cases ran : action s with
  | mk outcome after =>
    rw [ran] at before fails
    cases outcome with
    | ok value =>
      rw [bind_of_ok ran]
      exact ⟨before.trans ((onward value).logs after), (onward value).fails after⟩
    | error fault =>
      rw [bind_of_error ran]
      exact ⟨before, fun _ failed => fails _ (congrArg _ (Except.error.inj failed))⟩

theorem attempt {action : Action α} {next : Except Fault α → Action β}
    (behaves : Behaves holds may action) (onward : ∀ value, Behaves holds may (next (.ok value)))
    (failed : ∀ fault, may fault → Behaves holds may (next (.error fault))) :
    Behaves holds may (Action.attempt action >>= next) := by
  have onward (s : Session) : Behaves holds may (next (action s).1) := by
    cases outcome : (action s).1 with
    | ok value => exact onward value
    | error fault => exact failed fault (behaves.fails s fault outcome)
  exact ⟨fun s => (behaves.logs s).trans ((onward s).logs _), fun s => (onward s).fails _⟩

theorem inStep (ordinary : ∀ event : Event, event.Ordinary → holds event)
    (calls : ∀ scope, holds (.called scope)) (reads : ∀ field, holds (.scopeRead field))
    (faults : ∀ fault : Fault, fault.Ordinary → may fault) :
    CatchInStep fun _ action _ => Behaves holds may action where
  pure := pure
  throw fault isSo := throw (faults fault isSo)
  bind := bind
  onShared _ := quiet (fun _ => rfl) fun _ _ failed => by cases failed
  record event isSo := record (ordinary event isSo)
  recordCall := getBind fun s => record (calls s.scope)
  ask field := getBind fun s => (record (reads field)).bind fun _ => pure _
  attempt behaves onward failed :=
    behaves.attempt onward fun fault isSo => failed fault (throw isSo)

section Around

variable {action : Action α} (behaves : Behaves holds may action)

include behaves

theorem inScope (scope : Scope) : Behaves holds may (Action.inScope scope action) :=
  ⟨fun s => behaves.logs { s with scope := some scope }, fun _ => behaves.fails _⟩

theorem inContext (context : Context) : Behaves holds may (Action.inContext context action) :=
  ⟨fun s => behaves.logs { s with context }, fun _ => behaves.fails _⟩

theorem inFrame (view : Value) : Behaves holds may (Action.inFrame view action) :=
  ⟨fun s => (behaves.inContext (s.context.push view)).logs s, fun _ => behaves.fails _⟩

theorem inRender (engine : Engine) (name : Option String) :
    Behaves holds may (engine.inRender name action) := by
  refine getBind fun s => ?_
  cases s.scope with
  | none => exact behaves.inScope _
  | some scope => exact behaves

theorem afterOpening (closes : holds .partialClosed) (name : String) (s : Session) :
    Session.Extends holds { s with log := .partialOpened name :: s.log }
      (Action.whileOpen name action s).2 :=
  (behaves.bind fun value => bind (record closes) fun _ => pure value).logs
    { s with log := .partialOpened name :: s.log }

variable {name : String} (opens : holds (.partialOpened name)) (closes : holds .partialClosed)

include opens closes

theorem whileOpen : Behaves holds may (Action.whileOpen name action) := by
  refine bind (record opens) fun _ => behaves.bind fun value => ?_
  exact bind (record closes) fun _ => pure value

theorem inPartial (refuses : ∀ limit title opened, may (Scope.refusal limit name title opened)) :
    Behaves holds may (Action.inPartial name action) := by
  refine getBind fun s => ?_
  cases s.scope with
  | none => exact behaves.whileOpen opens closes
  | some scope =>
    refine bind (ofExcept fun fault failed => ?_) fun _ =>
      (behaves.inScope (scope.child name)).whileOpen opens closes
    obtain ⟨limit, -, rfl⟩ := Scope.refusal_of_check failed
    exact refuses _ _ _

end Around

end Behaves

end Action

end Mustache
