import Mustache.Proofs.Behaviour
import Mustache.Proofs.ParseInStep
import Mustache.Proofs.TreesInStep

set_option autoImplicit false

namespace Mustache

def openPartials : List Event → List String
  | [] => []
  | .partialOpened name :: earlier => openPartials earlier ++ [name]
  | .partialClosed :: earlier => (openPartials earlier).dropLast
  | _ :: earlier => openPartials earlier

def mostOpen : List Event → Nat
  | [] => 0
  | event :: earlier => max (openPartials (event :: earlier)).length (mostOpen earlier)

theorem length_openPartials_le (happened : List Event) :
    (openPartials happened).length ≤ mostOpen happened := by
  cases happened with
  | nil => exact Nat.le_refl _
  | cons event earlier => exact Nat.le_max_left _ _

theorem mostOpen_le_append (more happened : List Event) :
    mostOpen happened ≤ mostOpen (more ++ happened) := by
  induction more with
  | nil => exact Nat.le_refl _
  | cons event more ih => exact Nat.le_trans ih (Nat.le_max_right _ _)

theorem openPartials_of_ordinary {event : Event} (ordinary : event.Ordinary)
    (earlier : List Event) : openPartials (event :: earlier) = openPartials earlier := by
  cases event <;> first | rfl | cases ordinary

theorem openPartials_of_ofParse {event : Event} (ofParse : event.OfParse) (earlier : List Event) :
    openPartials (event :: earlier) = openPartials earlier := by
  cases event <;> first | rfl | cases ofParse

def Allows : Option Int → Nat → Prop
  | none, _ => True
  | some most, count => count < most

def Scope.within (title : Option String) (limit : Option Int) (opened : List String) : Scope :=
  ⟨title, opened.length, limit, opened⟩

theorem Scope.child_within (title : Option String) (limit : Option Int) (opened : List String)
    (name : String) :
    (within title limit opened).child name = within title limit (opened ++ [name]) := by
  simp [within, child]

section Checks

variable {limit : Option Int} {opened : List String}

theorem Scope.check_of_allows {title : Option String} (allows : Allows limit opened.length)
    (name : String) : (within title limit opened).check name = .ok () := by
  cases limit with
  | none => rfl
  | some most => exact if_pos allows

theorem Scope.check_of_not_allows (refuses : ¬ Allows limit opened.length) (name : String) :
    ∃ most : Int, limit = some most ∧ most ≤ opened.length ∧ ∀ title,
      (within title limit opened).check name = .error (refusal most name title opened) := by
  cases limit with
  | none => exact absurd trivial refuses
  | some most => exact ⟨most, rfl, Int.not_lt.1 refuses, fun _ => if_neg refuses⟩

end Checks

def Fault.OfDepth : Fault → Prop
  | .tooDeep _ _ _ _ => True
  | _ => False

theorem Scope.refusal_of_ofDepth {limit : Int} {refused : String} {title : Option String}
    {opened : List String} (isDeep : (refusal limit refused title opened).OfDepth) :
    refusal limit refused title opened = .tooDeep limit refused title opened := by
  refine (refusal_cases limit refused title opened).resolve_right ?_
  rintro ⟨-, host⟩
  rw [host] at isDeep
  exact isDeep

theorem Fault.Ordinary.not_ofDepth {fault : Fault} (ordinary : fault.Ordinary) :
    ¬ fault.OfDepth := by
  cases fault <;> first | exact id | cases ordinary

/-- Two runs of a render under limits, with the title of the template and the log before them. -/
structure Runs where
  limit : Option Int
  limit' : Option Int
  title : Option String
  origin : List Event

namespace Runs

variable {runs : Runs} {α β : Type}

/-- The first run has asked for its limit, or opened a partial that the second one may not. -/
def Parted (runs : Runs) (happened : List Event) : Prop :=
  (runs.limit ≠ runs.limit' ∧ .scopeRead .maxPartialDepth ∈ happened) ∨
    ∃ count < mostOpen happened, Allows runs.limit count ∧ ¬ Allows runs.limit' count

theorem Parted.append {happened : List Event} (parted : runs.Parted happened)
    (more : List Event) : runs.Parted (more ++ happened) := by
  obtain ⟨differ, asked⟩ | ⟨count, less, allowed⟩ := parted
  · exact .inl ⟨differ, List.mem_append_right _ asked⟩
  · exact .inr ⟨count, Nat.lt_of_lt_of_le less (mostOpen_le_append more happened), allowed⟩

def PartedAt (runs : Runs) (s : Session) : Prop :=
  ∃ happened, s.log = happened ++ runs.origin ∧ runs.Parted happened

theorem PartedAt.extends {holds : Event → Prop} {s after : Session} (parted : runs.PartedAt s)
    (onto : s.Extends holds after) : runs.PartedAt after := by
  obtain ⟨happened, logged, parted⟩ := parted
  obtain ⟨more, grown, -⟩ := onto
  refine ⟨more ++ happened, ?_, parted.append more⟩
  rw [grown, logged, List.append_assoc]

def RefusedAt (runs : Runs) (fault : Fault) (s : Session) : Prop :=
  ∃ happened most refused, s.log = happened ++ runs.origin ∧ runs.limit = some most ∧
    fault = Scope.refusal most refused runs.title (openPartials happened) ∧
      (openPartials happened).length = most

/-- How two runs get on. Sessions are paired after a value; where faults are `caught`, also after a
fault. -/
inductive Together (runs : Runs) (caught : Bool) (paired : Session → Session → Prop) :
    Except Fault α × Session → Except Fault α × Session → Prop
  | done {value : α} {s t : Session} : paired s t →
      Together runs caught paired (.ok value, s) (.ok value, t)
  | failed {fault : Fault} {s t : Session} : ¬ fault.OfDepth → (caught = true → paired s t) →
      Together runs caught paired (.error fault, s) (.error fault, t)
  | exhausted {s : Session} {second : Except Fault α × Session} : caught = false →
      Together runs caught paired (.error .exhausted, s) second
  | refused {fault : Fault} {s : Session} {second : Except Fault α × Session} : caught = false →
      runs.RefusedAt fault s → (runs.limit = runs.limit' → second.1 = .error fault) →
      Together runs caught paired (.error fault, s) second
  | parted {first second : Except Fault α × Session} : runs.PartedAt first.2 →
      Together runs caught paired first second

/-- From paired sessions two actions get on as two runs do. In any session the first one adds to the
log only; where faults are caught, none of its faults is of the limit. -/
structure Follows (runs : Runs) (caught : Bool) (paired : Session → Session → Prop)
    (first second : Action α) : Prop where
  behaves : Action.Behaves (fun _ => True) (fun fault => caught = true → ¬ fault.OfDepth) first
  together (s t : Session) : paired s t → runs.Together caught paired (first s) (second t)

/-- Sessions in the two runs: all that is not logged is the same, apart from the limits. -/
structure Paired (runs : Runs) (scope scope' : Option Scope) (opened : List String)
    (s t : Session) : Prop where
  shared : s.shared = t.shared
  caches : s.caches = t.caches
  scope : s.scope = scope
  scope' : t.scope = scope'
  room : ∀ most, runs.limit = some most → opened.length ≤ most
  logged : ∃ happened, s.log = happened ++ runs.origin ∧ openPartials happened = opened

abbrev Inside (runs : Runs) (opened : List String) : Session → Session → Prop :=
  runs.Paired (some (.within runs.title runs.limit opened))
    (some (.within runs.title runs.limit' opened)) opened

/-- Scopes that have the same to tell, but for the limit if the runs have two. -/
def Alike (runs : Runs) (scope scope' : Option Scope) : Prop :=
  ∀ field : ScopeField, field = .maxPartialDepth ∧ runs.limit ≠ runs.limit' ∨
    field.read scope = field.read scope'

/-- Only where faults are caught the sessions have to be paired as before when one is met. -/
theorem Together.bind {caught : Bool} {paired paired' : Session → Session → Prop}
    {first second : Action α} {next next' : α → Action β} {s t : Session}
    (together : runs.Together caught paired (first s) (second t))
    (onward : ∀ value s t, paired s t → runs.Together caught paired' (next value s) (next' value t))
    (logs : ∀ value (s : Session), s.Extends (fun _ => True) (next value s).2)
    (kept : caught = true → ∀ s t, paired s t → paired' s t) :
    runs.Together caught paired' ((first >>= next) s) ((second >>= next') t) := by
  cases ran : first s with
  | mk outcome after =>
    cases ran' : second t with
    | mk outcome' after' =>
      rw [ran, ran'] at together
      cases together with
      | done isPaired =>
        rw [Action.bind_of_ok ran, Action.bind_of_ok ran']
        exact onward _ _ _ isPaired
      | failed notDeep isPaired =>
        rw [Action.bind_of_error ran, Action.bind_of_error ran']
        exact .failed notDeep fun isCaught => kept isCaught _ _ (isPaired isCaught)
      | exhausted uncaught =>
        rw [Action.bind_of_error ran]
        exact .exhausted uncaught
      | refused uncaught refusal same =>
        rw [Action.bind_of_error ran]
        refine .refused uncaught refusal fun equal => ?_
        obtain rfl := same equal
        rw [Action.bind_of_error ran']
      | parted away =>
        refine .parted ?_
        cases outcome with
        | ok value =>
          rw [Action.bind_of_ok ran]
          exact away.extends (logs value after)
        | error fault =>
          rw [Action.bind_of_error ran]
          exact away

namespace Follows

open Mustache.Action (Behaves)

variable {caught : Bool} {paired : Session → Session → Prop}

theorem weaken {first second : Action α} (follows : runs.Follows true paired first second) :
    runs.Follows false paired first second where
  behaves := ⟨follows.behaves.logs, fun _ _ _ uncaught => by cases uncaught⟩
  together s t isPaired := by
    have together := follows.together s t isPaired
    generalize first s = before, second t = before' at together ⊢
    cases together with
    | done kept => exact .done kept
    | failed notDeep kept => exact .failed notDeep fun uncaught => by cases uncaught
    | exhausted uncaught => cases uncaught
    | refused uncaught => cases uncaught
    | parted away => exact .parted away

theorem pure (value : α) : runs.Follows caught paired (pure value) (pure value) :=
  ⟨.pure value, fun _ _ isPaired => .done isPaired⟩

theorem throw {fault : Fault} (notDeep : ¬ fault.OfDepth) :
    runs.Follows caught paired (throw fault : Action α) (throw fault) :=
  ⟨.throw fun _ => notDeep, fun _ _ isPaired => .failed notDeep fun _ => isPaired⟩

theorem exhausted (second : Action α) :
    runs.Follows false paired (MonadExcept.throw .exhausted) second where
  behaves := .throw fun _ => id
  together _ _ _ := .exhausted rfl

theorem bind {first second : Action α} {next next' : α → Action β}
    (follows : runs.Follows caught paired first second)
    (onward : ∀ value, runs.Follows caught paired (next value) (next' value)) :
    runs.Follows caught paired (first >>= next) (second >>= next') where
  behaves := follows.behaves.bind fun value => (onward value).behaves
  together s t isPaired :=
    (follows.together s t isPaired).bind (fun value s t => (onward value).together s t)
      (fun value => (onward value).behaves.logs) fun _ _ _ => id

theorem attempt {first second : Action α} {next next' : Except Fault α → Action β}
    (follows : runs.Follows true paired first second)
    (onward : ∀ value, runs.Follows true paired (next (.ok value)) (next' (.ok value)))
    (failed : ∀ fault : Fault, ¬ fault.OfDepth →
      runs.Follows true paired (next (.error fault)) (next' (.error fault))) :
    runs.Follows true paired (Action.attempt first >>= next) (Action.attempt second >>= next') where
  behaves := follows.behaves.attempt (fun value => (onward value).behaves) fun fault notDeep =>
    (failed fault (notDeep rfl)).behaves
  together s t isPaired := by
    have together := follows.together s t isPaired
    have notDeep := follows.behaves.fails s
    change runs.Together true paired (next (first s).1 (first s).2)
      (next' (second t).1 (second t).2)
    generalize first s = before, second t = before' at together notDeep ⊢
    cases together with
    | done kept => exact (onward _).together _ _ kept
    | failed isSo kept => exact (failed _ isSo).together _ _ (kept rfl)
    | exhausted uncaught => cases uncaught
    | refused uncaught => cases uncaught
    | parted away =>
      obtain ⟨fault | value, after⟩ := before
      · exact .parted (away.extends ((failed _ (notDeep _ rfl rfl)).behaves.logs after))
      · exact .parted (away.extends ((onward _).behaves.logs after))

section Steps

variable {scope scope' : Option Scope} {opened : List String}

theorem onShared (step : Session.Shared → α × Session.Shared) :
    runs.Follows caught (runs.Paired scope scope' opened) (Action.onShared step)
      (Action.onShared step) where
  behaves := .quiet (fun _ => rfl) fun _ _ failed => by cases failed
  together s t isPaired := by
    unfold Action.onShared
    rw [← isPaired.shared]
    exact .done { isPaired with shared := rfl }

theorem onCaches (step : List TreeCache → α × List TreeCache) :
    runs.Follows caught (runs.Paired scope scope' opened) (Action.onCaches step)
      (Action.onCaches step) where
  behaves := .quiet (fun _ => rfl) fun _ _ failed => by cases failed
  together s t isPaired := by
    unfold Action.onCaches
    rw [← isPaired.caches]
    exact .done { isPaired with caches := rfl }

theorem record {event event' : Event}
    (silent : ∀ earlier, openPartials (event :: earlier) = openPartials earlier) :
    runs.Follows caught (runs.Paired scope scope' opened) (Action.record event)
      (Action.record event') where
  behaves := .record trivial
  together s t isPaired := by
    obtain ⟨happened, logged, same⟩ := isPaired.logged
    refine .done { isPaired with logged := ⟨event :: happened, congrArg _ logged, ?_⟩ }
    rw [silent, same]

theorem ask (alike : runs.Alike scope scope') (field : ScopeField) :
    runs.Follows caught (runs.Paired scope scope' opened) field.ask field.ask where
  behaves := .getBind fun _ => (Behaves.record trivial).bind fun _ => .pure _
  together s t isPaired := by
    obtain ⟨happened, logged, open_⟩ := isPaired.logged
    have logged' : .scopeRead field :: s.log = .scopeRead field :: happened ++ runs.origin :=
      congrArg _ logged
    change runs.Together caught _ (.ok (field.read s.scope), _) (.ok (field.read t.scope), _)
    rw [isPaired.scope, isPaired.scope']
    obtain ⟨rfl, differ⟩ | same := alike field
    · exact .parted ⟨_, logged', .inl ⟨differ, .head _⟩⟩
    · rw [same]
      exact .done { isPaired with logged := ⟨_, logged', open_⟩ }

theorem inStep (alike : runs.Alike scope scope') (caught : Bool) :
    InStep fun _ => runs.Follows caught (runs.Paired scope scope' opened) where
  pure := pure
  throw _ ordinary := throw ordinary.not_ofDepth
  bind := bind
  onShared _ := onShared _
  record _ ordinary := record (openPartials_of_ordinary ordinary)
  recordCall :=
    { behaves := .getBind fun _ => .record trivial
      together s t := (record fun _ => rfl).together s t }
  ask := ask alike

theorem cachesInStep (alike : runs.Alike scope scope') :
    CachesInStep fun _ => runs.Follows true (runs.Paired scope scope' opened) where
  toInStep := inStep alike true
  attempt follows onward failed :=
    follows.attempt onward fun fault notDeep => failed fault (throw notDeep)
  onCaches := onCaches
  recordParse _ ofParse := record (openPartials_of_ofParse ofParse)

end Steps

end Follows

end Runs

end Mustache
