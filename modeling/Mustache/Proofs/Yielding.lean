import Mustache.Proofs.CachedRendering
import Mustache.Proofs.Data
import Mustache.Proofs.Output

set_option autoImplicit false

namespace Mustache

namespace Action

variable {α β : Type} {holds : Session → Prop}

/-- An action with one outcome from every session of a kind, which it leaves in that kind. -/
def Yields (holds : Session → Prop) (action : Action α) (outcome : Except Fault α) : Prop :=
  ∀ s, holds s → (action s).1 = outcome ∧ holds (action s).2

namespace Yields

theorem pure (value : α) : Yields holds (pure value) (pure value) :=
  fun _ held => ⟨rfl, held⟩

theorem throw (fault : Fault) : Yields holds (throw fault : Action α) (throw fault) :=
  fun _ held => ⟨rfl, held⟩

theorem bind {action : Action α} {next : α → Action β} {outcome : Except Fault α}
    {onward : α → Except Fault β} (yields : Yields holds action outcome)
    (later : ∀ value, outcome = .ok value → Yields holds (next value) (onward value)) :
    Yields holds (action >>= next) (outcome >>= onward) := by
  intro s held
  obtain ⟨first, after⟩ := yields s held
  change (ExceptT.bindCont next (action s).1 (action s).2).1 = _ ∧
    holds (ExceptT.bindCont next (action s).1 (action s).2).2
  rw [first]
  cases outcome with
  | error fault => exact ⟨rfl, after⟩
  | ok value => exact later value rfl _ after

theorem andThen {action : Action α} {next : α → Action β} {value : α} {outcome : Except Fault β}
    (yields : Yields holds action (.ok value)) (later : Yields holds (next value) outcome) :
    Yields holds (action >>= next) outcome :=
  @bind _ _ _ _ _ _ (fun _ => outcome) yields fun _ same => Except.ok.inj same ▸ later

theorem getBind {next : Session → Action α} {outcome : Except Fault α}
    (later : ∀ s, holds s → Yields holds (next s) outcome) : Yields holds (get >>= next) outcome :=
  fun s held => later s held s held

theorem update {change : Session → Session} (keeps : ∀ s, holds s → holds (change s)) :
    Yields holds (modify change : Action PUnit) (.ok ⟨⟩) :=
  fun s held => ⟨rfl, keeps s held⟩

theorem set {s : Session} (held : holds s) :
    Yields holds (MonadState.set s : Action PUnit) (.ok ⟨⟩) :=
  fun _ _ => ⟨rfl, held⟩

theorem ofExcept (outcome : Except Fault α) : Yields holds (Action.ofExcept outcome) outcome := by
  cases outcome with
  | ok value => exact .pure value
  | error fault => exact .throw fault

theorem ofHost (outcome : Except HostFault α) :
    Yields holds (Action.ofHost outcome) (outcome.mapError .host) := by
  cases outcome with
  | ok value => exact .pure value
  | error fault => exact .throw (.host fault)

end Yields

end Action

open Mustache.Action (Yields)

structure Session.At (outlook : Outlook) (s : Session) : Prop where
  scope : s.scope = outlook.scope
  views : s.context.views = outlook.views
  remembers : ∀ name value, s.context.frame.found.lookup name = some value →
    resolve name outlook.views = .ok value

section Outlooks

variable {α : Type} {outlook : Outlook} {s : Session}

theorem Session.At.view (at' : s.At outlook) : s.context.view = Value.innermost outlook.views := by
  rw [← at'.views]
  rfl

theorem record_yields (event : Event) :
    Yields (Session.At outlook) (Action.record event) (.ok ()) :=
  .update fun _ at' => { at' with }

theorem inFrame_yields {action : Action α} {outcome : Except Fault α} {view : Value}
    (yields : Yields (Session.At (outlook.push view)) action outcome) :
    Yields (Session.At outlook) (Action.inFrame view action) outcome := by
  intro s at'
  have pushed : Session.At (outlook.push view) { s with context := s.context.push view } := by
    refine ⟨at'.scope, ?_, fun name value found => by cases found⟩
    exact congrArg (view :: ·) at'.views
  obtain ⟨done, after⟩ := yields _ pushed
  exact ⟨done, after.scope, at'.views, at'.remembers⟩

theorem inScope_yields {action : Action α} {outcome : Except Fault α} {scope : Scope}
    (yields : Yields (Session.At { outlook with scope := some scope }) action outcome) :
    Yields (Session.At outlook) (Action.inScope scope action) outcome := by
  intro s at'
  obtain ⟨done, after⟩ := yields { s with scope := some scope } ⟨rfl, at'.views, at'.remembers⟩
  exact ⟨done, at'.scope, after.views, after.remembers⟩

theorem whileOpen_yields {name : String} {action : Action α} {outcome : Except Fault α}
    (yields : Yields (Session.At outlook) action outcome) :
    Yields (Session.At outlook) (Action.whileOpen name action) outcome := by
  rw [← bind_pure outcome]
  refine .andThen (record_yields _) (yields.bind fun value _ => ?_)
  exact .andThen (record_yields _) (.pure value)

theorem inPartial_yields {name : String} {render : Action α} {onward : Outlook → Except Fault α}
    (yields : ∀ inside, outlook.inPartial name = .ok inside →
      Yields (Session.At inside) render (onward inside)) :
    Yields (Session.At outlook) (Action.inPartial name render)
      (outlook.inPartial name >>= onward) := by
  refine .getBind fun s at' => ?_
  rw [at'.scope]
  unfold Outlook.inPartial at yields ⊢
  cases known : outlook.scope with
  | none =>
    rw [known] at yields
    exact whileOpen_yields (yields outlook rfl)
  | some scope =>
    rw [known] at yields
    dsimp only at yields ⊢
    rw [bind_assoc]
    refine .bind (.ofExcept (scope.check name)) fun _ checked => ?_
    rw [pure_bind]
    refine whileOpen_yields (inScope_yields (yields _ ?_))
    rw [checked]
    rfl

def answered (view : Value) : Value → Action Value
  | .callable f => f.call (if f.takesView then [view] else [])
  | value => pure value

theorem Session.At.find (at' : s.At outlook) (name : String) :
    (∃ fault, outlook.find name = .error (.host fault) ∧ s.context.find name = .error fault) ∨
      ∃ value context, outlook.find name = .ok value ∧
        s.context.find name = .ok (value, context) ∧
        Session.At outlook { s with context } ∧ context.view = Value.innermost outlook.views := by
  unfold Context.find Outlook.find
  by_cases dot : name = "."
  · simp only [dot, if_true]
    exact .inr ⟨_, _, congrArg Except.ok at'.view.symm, rfl, at', at'.view⟩
  simp only [dot, if_false]
  cases known : s.context.frame.found.lookup name with
  | some value =>
    have found := at'.remembers name value known
    exact .inr ⟨value, _, by rw [found]; rfl, rfl, at', at'.view⟩
  | none =>
    rw [at'.views]
    cases found : resolve name outlook.views with
    | error fault => exact .inl ⟨fault, rfl, rfl⟩
    | ok value =>
      refine .inr ⟨value, _, rfl, rfl, ⟨at'.scope, at'.views, ?_⟩, at'.view⟩
      intro other kept there
      rw [List.lookup_cons] at there
      split at there
      next same =>
        rw [beq_iff_eq.1 same, found, Option.some.inj there]
      next => exact at'.remembers other kept there

theorem lookup_bind_yields {name : String} {next : Value → Action α}
    {result : Value → Except Fault α}
    (answers : ∀ value, outlook.find name = .ok value → Yields (Session.At outlook)
      (answered (Value.innermost outlook.views) value >>= next) (result value)) :
    Yields (Session.At outlook) (lookup name >>= next) (outlook.find name >>= result) := by
  rw [lookup, bind_assoc]
  refine .getBind fun s at' => ?_
  rcases at'.find name with ⟨fault, missing, failed⟩ | ⟨value, context, there, found, after, view⟩
  · rw [missing, failed]
    exact .throw _
  · rw [found, there]
    have answer := answers value there
    rw [← view] at answer
    change Yields _ ((MonadState.set { s with context } >>= fun _ => _) >>= next) (result value)
    rw [bind_assoc]
    refine .andThen (.set after) ?_
    cases value with
    | callable f => exact answer
    | _ => exact answer

theorem lookup_yields_found {name : String}
    (plain : ∀ f, outlook.find name ≠ .ok (.callable f)) :
    Yields (Session.At outlook) (lookup name) (outlook.find name) := by
  rw [← bind_pure (lookup name), ← bind_pure (outlook.find name)]
  refine lookup_bind_yields fun value there => ?_
  cases value with
  | callable f => exact absurd there (plain f)
  | _ => exact .pure _

end Outlooks

end Mustache
