import Mustache.Proofs.Behaviour
import Mustache.Proofs.CacheKeys
import Mustache.Proofs.ParseInStep
import Mustache.Proofs.TreesInStep

set_option autoImplicit false

namespace Mustache

mutual

def Node.names : Node → List String
  | .leaf token => if token.kind.writesValue then [token.value] else []
  | .block opener children _ => opener.value :: treeNames children

def treeNames : List Node → List String
  | [] => []
  | node :: rest => node.names ++ treeNames rest

end

def Event.tree? : Event → Option (List Node)
  | .treeFound name source pair | .treeMissing name source pair =>
      (parseTemplate source pair name).toOption
  | _ => none

def Action.parsedTrees {α : Type} (action : Action α) (s : Session) : List (List Node) :=
  let after := (action s).2.log
  (after.take (after.length - s.log.length)).filterMap Event.tree?

abbrev Action.Grows {α : Type} (action : Action α) : Prop :=
  Action.Behaves (fun _ => True) (fun _ => True) action

namespace Action.Grows

variable {α : Type} {action : Action α}

theorem exists_logged (grows : action.Grows) (s : Session) :
    ∃ happened, (action s).2.log = happened ++ s.log := by
  obtain ⟨happened, logged, -⟩ := grows.logs s
  exact ⟨happened, logged⟩

theorem silent (quiet : ∀ s, (action s).2.log = s.log) : action.Grows :=
  .quiet quiet fun _ _ _ => trivial

theorem ofExcept (outcome : Except Fault α) : (Action.ofExcept outcome).Grows :=
  Behaves.ofExcept fun _ _ => trivial

theorem inPartial (grows : action.Grows) (name : String) : (Action.inPartial name action).Grows :=
  Behaves.inPartial grows trivial trivial fun _ _ _ => trivial

theorem cachesInStep : CachesInStep fun _ action _ => action.Grows where
  toCatchInStep := Behaves.inStep (fun _ _ => trivial) (fun _ => trivial) (fun _ => trivial)
    fun _ _ => trivial
  onCaches _ := silent fun _ => rfl
  recordParse _ _ := .record trivial

end Action.Grows

open Mustache.Action (Grows)

theorem Job.grows :
    TreesInStep (fun _ : Unit => fun _ action _ => Grows action)
      (fun _ : Unit => fun _ action _ => Grows action) (fun _ _ => ()) id (fun _ _ => True) where
  steps _ := Grows.cachesInStep.toInStep
  catches _ := Grows.cachesInStep.toCatchInStep
  find _ _ := .silent fun _ => rfl
  weaken := id
  escaper _ := rfl
  partials _ := rfl
  source _ := rfl
  withSource _ _ := rfl
  part _ _ := trivial
  inFrame view grows := grows.inFrame view
  inRender job grows := grows.inRender job.engine none
  inPartial name grows := grows.inPartial name
  parse source _ onward answered := by
    have parse := Engine.parse_inStep Grows.cachesInStep
    refine (parse _ source _ none).bind fun tree => ?_
    cases tree with
    | parsed nodes => exact onward nodes trivial
    | foreign answer => exact answered answer
  lambda _ _ _ := .record trivial
  sourceless _ _ _ := .silent fun _ => rfl

namespace Job

theorem render_grows (depth : Nat) (job : Job) (nodes : List Node) :
    (Job.render depth job nodes).Grows :=
  Job.grows.render_same depth () job nodes trivial

theorem escapedValue_grows (job : Job) (name : String) : (job.escapedValue name).Grows :=
  @TreesInStep.escapedValue _ _ _ _ _ _ Job.grows () job name

theorem plainValue_grows (name : String) : (plainValue name).Grows :=
  @TreesInStep.plainValue _ _ _ _ _ _ Job.grows () name

variable (job : Job) {inner : Inner} (inside : ∀ job nodes, (inner job nodes).Grows)

include inside

theorem renderInverted_grows (name : String) (children : List Node) :
    (job.renderInverted inner name children).Grows :=
  @TreesInStep.renderInverted _ _ _ _ _ _ Job.grows () job inner inner
    (fun _ job nodes _ => inside job nodes) children trivial name

theorem renderSection_grows (opener : Token) (children : List Node) (closeStart : Nat) :
    (job.renderSection inner opener children closeStart).Grows :=
  @TreesInStep.renderSection _ _ _ _ _ _ Job.grows () job inner inner
    (fun _ job nodes _ => inside job nodes) _ trivial opener children closeStart
    (.head (.block opener children closeStart) []) trivial

theorem renderTree_grows (tree : Tree) : (job.renderTree inner tree).Grows :=
  @TreesInStep.renderTree _ _ _ _ _ _ Job.grows job inner inner
    (fun _ job nodes _ => inside job nodes) () tree fun _ _ => trivial

end Job

theorem Action.parsedTrees_eq {α : Type} {action : Action α} {s : Session} {happened : List Event}
    (logged : (action s).2.log = happened ++ s.log) :
    action.parsedTrees s = happened.filterMap Event.tree? := by
  have count : (happened ++ s.log).length - s.log.length = happened.length := by simp
  rw [parsedTrees, logged, count, List.take_left]

def Engine.FindsOwn (engine : Engine) (pair : Delimiters) (caches : List TreeCache) : Prop :=
  engine.cache = .nothing ∨
    ∃ slot inUse, engine.cache = .keepFirst slot ∧ ToldApart inUse ∧ inUse pair ∧
      Stored inUse caches

section Parses

variable {engine : Engine} {pair : Delimiters} {s : Session}

theorem Engine.FindsOwn.ofEmpty {slot : Nat} (pair : Delimiters)
    (keeps : engine.cache = .keepFirst slot) {caches : List TreeCache}
    (empty : ∀ cache ∈ caches, cache.entries = []) : engine.FindsOwn pair caches := by
  refine .inr ⟨slot, (· = pair), keeps, ?_, rfl, ?_⟩
  · rintro p q rfl rfl -
    rfl
  · intro cache member entry kept
    rw [empty cache member] at kept
    cases kept

theorem Engine.parse_logs (source : String) (finds : engine.FindsOwn pair s.caches) :
    ∃ event, (engine.parse source pair none s).2.log = event :: s.log ∧
      event.tree? = (parseTemplate source pair).toOption := by
  unfold parse
  rcases finds with nothing | ⟨slot, inUse, keeps, -⟩
  · refine ⟨.treeMissing none source pair, ?_, rfl⟩
    rw [nothing]
    cases parsed : parseTemplate source pair <;> rfl
  · rw [keeps, Action.bind_of_ok (CacheHandle.find_keepFirst slot (pair.cacheKey source) s)]
    cases (s.cache slot).entries.lookup (pair.cacheKey source) with
    | some nodes => exact ⟨.treeFound none source pair, rfl, rfl⟩
    | none =>
      refine ⟨.treeMissing none source pair, ?_, rfl⟩
      cases parsed : parseTemplate source pair <;> rfl

theorem Engine.FindsOwn.parse (finds : engine.FindsOwn pair s.caches) (source : String) :
    (engine.parse source pair none s).1 = (parseTemplate source pair).map .parsed ∧
      engine.FindsOwn pair (engine.parse source pair none s).2.caches := by
  have made : (engine.uncached.parse source pair none s).1 =
      (parseTemplate source pair).map .parsed := by
    rw [parse_uncached]
    cases parseTemplate source pair <;> rfl
  rcases finds with nothing | ⟨slot, inUse, keeps, apart, used, stored⟩
  · rw [uncached_of_nothing nothing] at made
    exact ⟨made, .inl nothing⟩
  · obtain ⟨outcome, after⟩ := parse_agree apart keeps used source none s s
      ⟨rfl, rfl, rfl, rfl, stored⟩
    exact ⟨outcome.trans made, .inr ⟨slot, inUse, keeps, apart, used, after.caches⟩⟩

end Parses

end Mustache
