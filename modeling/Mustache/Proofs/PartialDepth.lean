import Mathlib.Data.List.Basic
import Mustache.Proofs.OpenPartials

set_option autoImplicit false

namespace Mustache

namespace Runs

open Mustache.Action (Behaves)

variable {runs : Runs} {α : Type} {caught : Bool}

theorem Together.restore {paired paired' : Session → Session → Prop}
    {first second : Except Fault α × Session} (together : runs.Together caught paired first second)
    (back back' : Session → Session) (logs : ∀ s, (back s).log = s.log)
    (pairs : ∀ s t, paired s t → paired' (back s) (back' t)) :
    runs.Together caught paired' (first.1, back first.2) (second.1, back' second.2) := by
  cases together with
  | done kept => exact .done (pairs _ _ kept)
  | failed notDeep kept => exact .failed notDeep fun isCaught => pairs _ _ (kept isCaught)
  | exhausted uncaught => exact .exhausted uncaught
  | refused uncaught refusal same =>
    obtain ⟨happened, most, refused, logged, refusal⟩ := refusal
    exact .refused uncaught ⟨happened, most, refused, (logs _).trans logged, refusal⟩ same
  | parted away =>
    obtain ⟨happened, logged, parted⟩ := away
    exact .parted ⟨happened, (logs _).trans logged, parted⟩

namespace Follows

variable {scope scope' : Option Scope} {opened : List String} {first second : Action α}

theorem inContext (context : Context)
    (follows : runs.Follows caught (runs.Paired scope scope' opened) first second) :
    runs.Follows caught (runs.Paired scope scope' opened) (Action.inContext context first)
      (Action.inContext context second) where
  behaves := follows.behaves.inContext context
  together s t isPaired := by
    have same := isPaired.shared
    simp only [Session.shared, Session.Shared.mk.injEq] at same
    have inside : runs.Paired scope scope' opened { s with context } { t with context } :=
      { isPaired with shared := by simp [Session.shared, same] }
    refine (follows.together _ _ inside).restore ({ · with context := s.context })
      ({ · with context := t.context }) (fun _ => rfl) fun a b after => ?_
    have kept := after.shared
    simp only [Session.shared, Session.Shared.mk.injEq] at kept
    exact { after with shared := by simp [Session.shared, same, kept] }

theorem inFrame (view : Value)
    (follows : runs.Follows caught (runs.Paired scope scope' opened) first second) :
    runs.Follows caught (runs.Paired scope scope' opened) (Action.inFrame view first)
      (Action.inFrame view second) where
  behaves := follows.behaves.inFrame view
  together s t isPaired := by
    have same : s.context = t.context := congrArg Session.Shared.context isPaired.shared
    unfold Action.inFrame
    rw [← same]
    exact (follows.inContext (s.context.push view)).together s t isPaired

theorem inScope {inner inner' : Scope}
    (follows : runs.Follows caught (runs.Paired (some inner) (some inner') opened) first second) :
    runs.Follows caught (runs.Paired scope scope' opened) (Action.inScope inner first)
      (Action.inScope inner' second) where
  behaves := follows.behaves.inScope inner
  together s t isPaired := by
    have inside : runs.Paired (some inner) (some inner') opened { s with scope := some inner }
        { t with scope := some inner' } := { isPaired with scope := rfl, scope' := rfl }
    refine (follows.together _ _ inside).restore ({ · with scope := s.scope })
      ({ · with scope := t.scope }) (fun _ => rfl) fun a b after => ?_
    exact { after with scope := isPaired.scope, scope' := isPaired.scope' }

theorem inRender {inner inner' : Scope} (engine engine' : Engine) (name : Option String)
    (follows : runs.Follows caught (runs.Paired (some inner) (some inner') opened) first second) :
    runs.Follows caught (runs.Paired (some inner) (some inner') opened)
      (engine.inRender name first) (engine'.inRender name second) where
  behaves := follows.behaves.inRender engine name
  together s t isPaired := by
    rw [engine.inRender_within name first isPaired.scope,
      engine'.inRender_within name second isPaired.scope']
    exact follows.together s t isPaired

end Follows

theorem whileOpen_eq (name : String) (action : Action α) (s : Session) :
    Action.whileOpen name action s =
      (action >>= fun value => Action.record .partialClosed >>= fun _ => pure value)
        { s with log := .partialOpened name :: s.log } :=
  rfl

namespace Follows

variable {opened : List String} {first second : Action α}

theorem whileOpen {scope scope' : Option Scope} {s t : Session} {name : String}
    (follows : runs.Follows false (runs.Paired scope scope' (opened ++ [name])) first second)
    (isPaired : runs.Paired scope scope' opened s t) (allows : Allows runs.limit opened.length) :
    runs.Together false (runs.Paired scope scope' opened) (Action.whileOpen name first s)
      (Action.whileOpen name second t) := by
  obtain ⟨happened, logged, same⟩ := isPaired.logged
  have inside : runs.Paired scope scope' (opened ++ [name])
      { s with log := .partialOpened name :: s.log }
      { t with log := .partialOpened name :: t.log } :=
    { isPaired with
      room := by
        intro most limited
        rw [limited] at allows
        rw [List.length_append]
        exact Int.add_one_le_of_lt allows
      logged := by
        refine ⟨.partialOpened name :: happened, congrArg _ logged, ?_⟩
        rw [openPartials, same] }
  rw [whileOpen_eq, whileOpen_eq]
  refine (follows.together _ _ inside).bind (fun value a b kept => ?_) (fun value a => ?_) (by simp)
  · obtain ⟨during, logged, same⟩ := kept.logged
    refine .done { kept with room := isPaired.room, logged := ?_ }
    refine ⟨.partialClosed :: during, congrArg _ logged, ?_⟩
    rw [openPartials, same, List.dropLast_concat]
  · exact ⟨[.partialClosed], rfl, fun _ _ => trivial⟩

theorem inPartial (name : String)
    (follows : runs.Follows false (runs.Inside (opened ++ [name])) first second) :
    runs.Follows false (runs.Inside opened) (Action.inPartial name first)
      (Action.inPartial name second) where
  behaves := follows.behaves.inPartial trivial trivial fun _ _ _ uncaught => by cases uncaught
  together s t isPaired := by
    obtain ⟨happened, logged, same⟩ := isPaired.logged
    rw [Action.inPartial, Action.inPartial, Action.get_bind, Action.get_bind, isPaired.scope,
      isPaired.scope']
    dsimp only
    rw [Scope.child_within, Scope.child_within]
    by_cases allows : Allows runs.limit opened.length
    · rw [Scope.check_of_allows allows]
      by_cases allows' : Allows runs.limit' opened.length
      · rw [Scope.check_of_allows allows']
        exact follows.inScope.whileOpen isPaired allows
      · -- Only the first run goes on, and in it one partial more is open than the second allows.
        have more : opened.length < mostOpen (.partialOpened name :: happened) := by
          refine Nat.lt_of_lt_of_le ?_ (length_openPartials_le _)
          rw [openPartials, same, List.length_append]
          exact Nat.lt_add_one _
        have away : runs.PartedAt { s with log := .partialOpened name :: s.log } :=
          ⟨_, congrArg _ logged, .inr ⟨opened.length, more, allows, allows'⟩⟩
        exact .parted (away.extends ((follows.behaves.inScope _).afterOpening trivial name s))
    · obtain ⟨most, limited, reached, refuses⟩ := Scope.check_of_not_allows allows name
      have full : (opened.length : Int) = most :=
        Int.le_antisymm (isPaired.room most limited) reached
      rw [refuses]
      refine .refused rfl ⟨happened, most, name, logged, limited, ?_, ?_⟩ fun equal => ?_
      · rw [same]
      · rw [same, full]
      · rw [← equal, refuses]
        rfl

theorem beginRender (engine engine' : Engine) (limits : engine.maxPartialDepth = runs.limit)
    (limits' : engine'.maxPartialDepth = runs.limit')
    (follows : runs.Follows caught (runs.Inside []) first second) :
    runs.Follows caught (runs.Paired none none []) (engine.inRender runs.title first)
      (engine'.inRender runs.title second) where
  behaves := follows.behaves.inRender engine runs.title
  together s t isPaired := by
    rw [engine.inRender_outside runs.title first isPaired.scope,
      engine'.inRender_outside runs.title second isPaired.scope', limits, limits']
    exact follows.inScope.together s t isPaired

end Follows

theorem alike_within (runs : Runs) (opened : List String) :
    runs.Alike (some (.within runs.title runs.limit opened))
      (some (.within runs.title runs.limit' opened)) := by
  intro field
  cases field with
  | maxPartialDepth =>
    by_cases same : runs.limit = runs.limit'
    · rw [same]
      exact .inr rfl
    · exact .inl ⟨rfl, same⟩
  | _ => exact .inr rfl

theorem Parted.asked {happened : List Event} (parted : runs.Parted happened)
    (covers : ∀ count < mostOpen happened, Allows runs.limit count → Allows runs.limit' count) :
    runs.limit ≠ runs.limit' ∧ .scopeRead .maxPartialDepth ∈ happened := by
  obtain asked | ⟨count, less, allows, refuses⟩ := parted
  · exact asked
  · exact absurd (covers count less allows) refuses

theorem PartedAt.parted {s : Session} {happened : List Event} (away : runs.PartedAt s)
    (logged : s.log = happened ++ runs.origin) : runs.Parted happened := by
  obtain ⟨happened', logged', parted⟩ := away
  obtain rfl := List.append_cancel_right (logged.symm.trans logged')
  exact parted

end Runs

theorem Fault.ofDepth_of_report? {fault : Fault} {report : RuntimeReport}
    (reported : fault.report? = some (.runtime report)) : fault.OfDepth := by
  cases fault <;> first | trivial | cases reported

def Engine.limited (engine : Engine) (limit : Option Int) : Engine :=
  { engine with maxPartialDepth := limit }

def Job.limited (limit : Option Int) (job : Job) : Job :=
  { job with engine := job.engine.limited limit }

theorem Job.limitedInStep (runs : Runs) (limit : Option Int) :
    TreesInStep
      (fun opened _ => runs.Follows false (runs.Inside opened))
      (fun opened _ => runs.Follows true (runs.Inside opened))
      (fun opened name => opened ++ [name]) (Job.limited limit) (fun _ _ => True) where
  steps opened := Runs.Follows.inStep (runs.alike_within opened) false
  catches opened := (Runs.Follows.cachesInStep (runs.alike_within opened)).toCatchInStep
  find _ _ := Runs.Follows.onShared _
  weaken := Runs.Follows.weaken
  escaper _ := rfl
  partials _ := rfl
  source _ := rfl
  withSource _ _ := rfl
  part _ _ := trivial
  inFrame view := .inFrame view
  -- Only the first render puts its limit in a scope.
  inRender job := .inRender job.engine (job.limited limit).engine none
  inPartial name := .inPartial name
  parse {opened _ job _ _ _} source _ onward answered := by
    have steps : CachesInStep fun _ => runs.Follows true (runs.Inside opened) :=
      Runs.Follows.cachesInStep (runs.alike_within opened)
    refine (job.engine.parse_inStep steps source job.pair none).weaken.bind fun tree => ?_
    cases tree with
    | parsed nodes => exact onward nodes trivial
    | foreign answer => exact answered answer
  lambda _ _ _ := .record fun _ => rfl
  sourceless _ _ _ := .throw id

namespace Engine

open Mustache.Runs (Follows)

variable {engine : Engine} {runs : Runs}

theorem renderTree_follows (limits : engine.maxPartialDepth = runs.limit) (depth extra : Nat)
    (tree : Tree) (view partials : Value) (source : Option String) (pair : Delimiters) :
    runs.Follows false (runs.Paired none none [])
      (engine.renderTree depth tree view partials source pair runs.title)
      ((engine.limited runs.limit').renderTree (extra + depth) tree view partials source pair
        runs.title) := by
  let job : Job := ⟨engine, partials, source, pair⟩
  have walk := Job.limitedInStep runs runs.limit'
  have inner := walk.render (fun _ _ nodes _ => Follows.exhausted (Job.render extra _ nodes)) depth
  have trees : runs.Follows false (runs.Inside []) (job.renderTree (Job.render depth) tree)
      ((job.limited runs.limit').renderTree (Job.render (extra + depth)) tree) :=
    walk.renderTree inner [] fun _ _ => trivial
  exact (Follows.beginRender engine (engine.limited runs.limit') limits rfl trees).inContext _

theorem render_follows (limits : engine.maxPartialDepth = runs.limit) (untitled : runs.title = none)
    (depth extra : Nat) (template view partials tags : Value) :
    runs.Follows false (runs.Paired none none []) (engine.render depth template view partials tags)
      ((engine.limited runs.limit').render (extra + depth) template view partials tags) := by
  have alike : runs.Alike none none := fun _ => .inr rfl
  have steps : InStep fun _ => runs.Follows false (runs.Paired none none []) :=
    Follows.inStep alike false
  have caches : CachesInStep fun _ => runs.Follows true (runs.Paired none none []) :=
    Follows.cachesInStep alike
  unfold render
  split
  next source =>
    refine (steps.ofExcept fun _ => ordinary_of_pairFor).bind fun pair => ?_
    refine (engine.parse_inStep caches source pair none).weaken.bind fun tree => ?_
    rw [← untitled]
    exact renderTree_follows limits depth extra tree view partials (some source) pair
  next => exact .throw id

section Limits

variable {s after : Session} {template view partials tags : Value} {depth N : Nat}
  (outermost : s.scope = none)

include outermost

theorem render_together {limit : Option Int} (room : ∀ most, limit = some most → 0 ≤ most)
    (limit' : Option Int) (depth extra : Nat) (template view partials tags : Value) :
    Runs.Together ⟨limit, limit', none, s.log⟩ false
      (Runs.Paired ⟨limit, limit', none, s.log⟩ none none [])
      ((engine.limited limit).render depth template view partials tags s)
      ((engine.limited limit').render (extra + depth) template view partials tags s) := by
  let runs : Runs := ⟨limit, limit', none, s.log⟩
  have follows := @render_follows (engine.limited limit) runs rfl rfl depth extra template view
    partials tags
  apply follows.together
  exact ⟨rfl, rfl, outermost, outermost, room, [], rfl, rfl⟩

theorem render_together_of_natural (N : Nat) (limit' : Option Int) (depth extra : Nat)
    (template view partials tags : Value) :
    Runs.Together ⟨some N, limit', none, s.log⟩ false
      (Runs.Paired ⟨some N, limit', none, s.log⟩ none none [])
      ((engine.limited (some N)).render depth template view partials tags s)
      ((engine.limited limit').render (extra + depth) template view partials tags s) := by
  refine render_together outermost ?_ limit' depth extra template view partials tags
  rintro _ ⟨⟩
  exact Int.natCast_nonneg N

theorem render_under_greater {out : String} {happened : List Event}
    (rendered : (engine.limited (some N)).render depth template view partials tags s =
      (.ok out, after)) (logged : after.log = happened ++ s.log)
    (unasked : .scopeRead .maxPartialDepth ∉ happened) {limit : Option Int}
    (greater : ∀ most : Int, limit = some most → N ≤ most) (extra : Nat) :
    ((engine.limited limit).render (extra + depth) template view partials tags s).1 = .ok out := by
  have together := @render_together_of_natural engine s outermost N limit depth extra template view
    partials tags
  rw [rendered] at together
  generalize (engine.limited limit).render (extra + depth) template view partials tags s = second
    at together ⊢
  cases together with
  | done => rfl
  | parted away =>
    refine absurd ((away.parted logged).asked fun count _ allows => ?_).2 unasked
    cases limit with
    | none => trivial
    | some most => exact Int.lt_of_lt_of_le allows (greater most rfl)

theorem render_refused {fault : Fault}
    (failed : (engine.limited (some N)).render depth template view partials tags s =
      (.error fault, after)) (isDeep : fault.OfDepth) (extra : Nat) :
    Runs.RefusedAt ⟨some N, some N, none, s.log⟩ fault after ∧
      ((engine.limited (some N)).render (extra + depth) template view partials tags s).1 =
        .error fault := by
  have together := @render_together_of_natural engine s outermost N (some N) depth extra template
    view partials tags
  rw [failed] at together
  generalize (engine.limited (some N)).render (extra + depth) template view partials tags s = second
    at together ⊢
  cases together with
  | failed notDeep => exact absurd isDeep notDeep
  | exhausted => cases isDeep
  | refused _ refusal same => exact ⟨refusal, same rfl⟩
  | parted away =>
    obtain ⟨happened, -, parted⟩ := away
    exact absurd rfl (parted.asked fun _ _ => id).1

theorem not_ofDepth_of_mostOpen_le {outcome : Except Fault String} {happened : List Event}
    (rendered : (engine.limited none).render depth template view partials tags s =
      (outcome, after)) (ends : outcome ≠ .error .exhausted)
    (logged : after.log = happened ++ s.log)
    (unasked : .scopeRead .maxPartialDepth ∉ happened) (within : mostOpen happened ≤ N)
    {depth' : Nat} {fault : Fault}
    (failed : ((engine.limited (some N)).render depth' template view partials tags s).1 =
      .error fault) : ¬ fault.OfDepth := by
  intro isDeep
  -- The refusal is met also at a depth at which the render without a limit ends.
  have deeper := (render_refused outermost (Prod.ext failed rfl) isDeep depth).2
  have together := @render_together engine s outermost none (by simp) (some N) depth depth' template
    view partials tags
  rw [rendered, Nat.add_comm] at together
  generalize
    (engine.limited (some N)).render (depth + depth') template view partials tags s = second
    at together deeper
  cases together with
  | done => cases deeper
  | failed notDeep => exact notDeep (Except.error.inj deeper ▸ isDeep)
  | exhausted => exact ends rfl
  | refused _ refusal =>
    obtain ⟨_, _, _, _, limited, _⟩ := refusal
    cases limited
  | parted away =>
    refine unasked ((away.parted logged).asked fun count less _ => ?_).2
    exact Int.ofNat_lt.2 (Nat.lt_of_lt_of_le less within)

theorem render_limit_exact (N : Nat) (template view partials tags : Value) :
    (∀ depth out after happened,
        (engine.limited (some N)).render depth template view partials tags s = (.ok out, after) →
        after.log = happened ++ s.log → .scopeRead .maxPartialDepth ∉ happened →
        ∀ limit deeper, (∀ most : Int, limit = some most → N ≤ most) → depth ≤ deeper →
          ((engine.limited limit).render deeper template view partials tags s).1 = .ok out) ∧
      (∀ depth outcome after happened,
        (engine.limited none).render depth template view partials tags s = (outcome, after) →
        outcome ≠ .error .exhausted → after.log = happened ++ s.log →
        .scopeRead .maxPartialDepth ∉ happened → mostOpen happened ≤ N →
        ∀ depth fault report,
          ((engine.limited (some N)).render depth template view partials tags s).1 =
            .error fault → fault.report? ≠ some (.runtime report)) ∧
      ∀ depth fault after report,
        (engine.limited (some N)).render depth template view partials tags s =
          (.error fault, after) → fault.report? = some (.runtime report) →
        ∃ happened refused, after.log = happened ++ s.log ∧
          fault = .tooDeep N refused none (openPartials happened) ∧
          report.partialStack = openPartials happened ++ [refused] ∧
          report.partialStack.length = N + 1 := by
  refine ⟨?_, ?_, ?_⟩
  · intro depth out after happened rendered logged unasked limit deeper greater deeper_le
    obtain ⟨extra, rfl⟩ := Nat.exists_eq_add_of_le' deeper_le
    exact render_under_greater outermost rendered logged unasked greater extra
  · intro depth outcome after happened rendered ends logged unasked within depth' fault report
      failed reported
    exact not_ofDepth_of_mostOpen_le outermost rendered ends logged unasked within failed
      (Fault.ofDepth_of_report? reported)
  · intro depth fault after report failed reported
    have isDeep := Fault.ofDepth_of_report? reported
    obtain ⟨⟨happened, most, refused, logged, limited, refusal, full⟩, -⟩ :=
      render_refused outermost failed isDeep 0
    obtain rfl : (N : Int) = most := Option.some.inj limited
    rw [refusal] at isDeep
    obtain rfl := refusal.trans (Scope.refusal_of_ofDepth isDeep)
    obtain rfl := Report.runtime.inj (Option.some.inj reported)
    refine ⟨happened, refused, logged, rfl, rfl, ?_⟩
    rw [List.length_append, Int.ofNat.inj full]
    rfl

end Limits

theorem not_mem_of_all {happened : List Event}
    (silent : (happened.all fun event => !event matches .scopeRead _) = true) (field : ScopeField) :
    .scopeRead field ∉ happened := by
  intro asked
  have := List.all_eq_true.1 silent _ asked
  contradiction

theorem render_limit_exact_of_two_partials :
    let engine : Engine := { cache := .nothing }
    let view : Value := .map [(.str "x", .bool true)]
    let partials : Value := .map [(.str "p", .str "a{{#x}}{{>q}}{{/x}}"), (.str "q", .str "b")]
    ((engine.limited none).render 7 (.str "{{>p}}") view partials .null {}).1 = .ok "ab" ∧
      (∀ depth fault report,
        ((engine.limited (some (2 : Nat))).render depth (.str "{{>p}}") view partials .null {}).1 =
          .error fault → fault.report? ≠ some (.runtime report)) ∧
      ∃ fault report,
        ((engine.limited (some (1 : Nat))).render 4 (.str "{{>p}}") view partials .null {}).1 =
            .error fault ∧
          fault.report? = some (.runtime report) ∧ report.partialStack = ["p", "q"] ∧
          report.partialStack.length = 1 + 1 := by
  intro engine view partials
  have exact (N : Nat) := @render_limit_exact engine {} rfl N (.str "{{>p}}") view partials .null
  have two : ((engine.limited (some (2 : Nat))).render 4 (.str "{{>p}}") view partials .null {}).1 =
      .ok "ab" := by decide +kernel
  have every : ((engine.limited none).render 4 (.str "{{>p}}") view partials .null {}).1 =
      .ok "ab" := by decide +kernel
  have most : mostOpen
      ((engine.limited none).render 4 (.str "{{>p}}") view partials .null {}).2.log = 2 := by
    decide +kernel
  have one : ((engine.limited (some (1 : Nat))).render 4 (.str "{{>p}}") view partials .null {}).1 =
      .error (.tooDeep 1 "q" none ["p"]) := by decide +kernel
  have ran {run : Except Fault String × Session} {outcome : Except Fault String}
      (same : run.1 = outcome) : run = (outcome, run.2) := Prod.ext same rfl
  have logged (after : Session) : after.log = after.log ++ ({} : Session).log :=
    (List.append_nil _).symm
  refine ⟨?_, ?_, ?_⟩
  · exact (exact 2).1 4 "ab" _ _ (ran two) (logged _) (not_mem_of_all (by decide +kernel) _) none 7
      (by simp) (by decide)
  · exact (exact 2).2.1 4 _ _ _ (ran every) (by rintro ⟨⟩) (logged _)
      (not_mem_of_all (by decide +kernel) _) (Nat.le_of_eq most)
  · obtain ⟨happened, refused, -, -, -, length⟩ := (exact 1).2.2 4 _ _ _ (ran one) rfl
    exact ⟨_, _, one, rfl, rfl, length⟩

end Engine

end Mustache
