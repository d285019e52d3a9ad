import Mustache.Proofs.DataInStep
import Mustache.Proofs.MemoizedLookups

set_option autoImplicit false

namespace Mustache

namespace Context

structure Extends (later earlier : Context) : Prop where
  views : later.views = earlier.views
  found {name : String} {value : Value} :
    earlier.frame.found.lookup name = some value → later.frame.found.lookup name = some value

variable {context after later : Context} {name : String} {value : Value}

theorem Extends.refl (context : Context) : context.Extends context :=
  ⟨rfl, id⟩

theorem Extends.trans (second : later.Extends after) (first : after.Extends context) :
    later.Extends context :=
  ⟨second.views.trans first.views, fun kept => second.found (first.found kept)⟩

theorem Extends.view (extended : later.Extends context) : later.view = context.view :=
  (List.cons.inj extended.views).1

theorem extends_find (found : context.find name = .ok (value, after)) : after.Extends context := by
  unfold find at found
  split at found
  next =>
    cases found
    exact .refl context
  next =>
    split at found
    next =>
      cases found
      exact .refl context
    next unknown =>
      cases resolved : resolve name context.views with
      | error fault =>
        rw [resolved] at found
        cases found
      | ok value =>
        rw [resolved] at found
        cases found
        refine ⟨rfl, fun {other value} kept => ?_⟩
        have different : other ≠ name := by
          rintro rfl
          cases unknown.symm.trans kept
        simpa [List.lookup_cons, beq_false_of_ne different] using kept

theorem Extends.find_again (extended : later.Extends after)
    (found : context.find name = .ok (value, after)) : later.find name = .ok (value, later) := by
  have same := extends_find found
  unfold find at found ⊢
  split at found
  next dot =>
    cases found
    rw [if_pos dot, extended.view]
  next dot =>
    rw [if_neg dot]
    split at found
    next remembered =>
      cases found
      rw [extended.found remembered]
    next unknown =>
      cases resolved : resolve name context.views with
      | error fault =>
        rw [resolved] at found
        cases found
      | ok value =>
        rw [resolved] at found
        cases found
        rw [extended.found (List.lookup_cons_self ..)]

end Context

def Session.Within (context : Context) (s t : Session) : Prop :=
  s = t ∧ s.context.Extends context

theorem scopeShared_within (context : Context) : ScopeShared (Session.Within context) where
  scope within := congrArg Session.scope within.1
  withScope _ within := ⟨by rw [within.1], within.2⟩
  record _ within := ⟨by rw [within.1], within.2⟩

namespace Action

variable {α β : Type}

def Keep (first second : Action α) : Prop :=
  ∀ context, Preserve (Session.Within context) first second

theorem Keep.extends {action : Action α} (keep : Keep action action) (s : Session) :
    (action s).2.context.Extends s.context :=
  (keep s.context s s ⟨rfl, .refl s.context⟩).2.2

namespace Keep

theorem of_context {step : Action α} (alone : ∀ s, (step s).2.context = s.context) :
    Keep step step := by
  rintro context s _ ⟨rfl, within⟩
  exact ⟨rfl, rfl, by rwa [alone s]⟩

theorem find (name : String) :
    Keep (Action.onShared (Session.Shared.find name))
      (Action.onShared (Session.Shared.find name)) := by
  rintro context s _ ⟨rfl, within⟩
  refine ⟨rfl, rfl, ?_⟩
  unfold Action.onShared Session.Shared.find Session.shared Session.withShared
  dsimp only
  split
  next value after found => exact (Context.extends_find found).trans within
  next => exact within

theorem cachesInStep : CachesInStep fun _ => Keep :=
  Preserve.all_cachesInStep scopeShared_within
    (fun taken => of_context fun s => by cases taken <;> rfl) fun _ => of_context fun _ => rfl

theorem inFrame {first second : Action α} (keep : Keep first second) (view : Value) :
    Keep (Action.inFrame view first) (Action.inFrame view second) := by
  rintro context s _ ⟨rfl, within⟩
  obtain ⟨outcome, same, -⟩ := keep (s.context.push view)
    { s with context := s.context.push view } _ ⟨rfl, .refl (s.context.push view)⟩
  exact ⟨outcome, congrArg (fun after => { after with context := s.context }) same, within⟩

end Keep

end Action

open Mustache.Action (Keep)

theorem Job.keepInStep :
    TreesInStep (fun _ : Unit => fun _ => Keep) (fun _ : Unit => fun _ => Keep) (fun _ _ => ()) id
      (fun _ _ => True) where
  steps _ := Keep.cachesInStep.toInStep
  catches _ := Keep.cachesInStep.toCatchInStep
  find _ := Keep.find
  weaken := id
  escaper _ := rfl
  partials _ := rfl
  source _ := rfl
  withSource _ _ := rfl
  part _ _ := trivial
  inFrame view keep := keep.inFrame view
  inRender job keep context := .inRender (scopeShared_within context) (keep context) job.engine none
  inPartial name keep context := .inPartial (scopeShared_within context) (keep context) name
  parse source _ onward answered := by
    refine Keep.cachesInStep.bind (Engine.parse_inStep Keep.cachesInStep _ source _ none)
      fun tree => ?_
    cases tree with
    | parsed nodes => exact onward nodes trivial
    | foreign answer => exact answered answer
  lambda _ _ _ context := .record (scopeShared_within context) _
  sourceless _ _ _ _ := .throw _

theorem Job.render_keep (depth : Nat) (job : Job) (nodes : List Node) :
    Keep (Job.render depth job nodes) (Job.render depth job nodes) :=
  Job.keepInStep.render_same depth () job nodes trivial

theorem lookup_keep (name : String) : Keep (lookup name) (lookup name) :=
  lookup_inStep Keep.cachesInStep.toCatchInStep (.find name)

theorem calledWith_keep (value view : Value) :
    Keep (value.calledWith view) (value.calledWith view) := by
  unfold Value.calledWith
  split
  · exact Closure.call_inStep Keep.cachesInStep.toCatchInStep _ _
  · exact Keep.cachesInStep.pure _

def Session.FindsFunction (s : Session) (name : String) : Prop :=
  ∃ f context, s.context.find name = .ok (.callable f, context)

theorem lookup_again {name : String} {value : Value} {s found after : Session}
    (looked : lookup name s = (.ok value, found))
    (extended : after.context.Extends found.context)
    (steady : s.FindsFunction name → (lookup name after).1 = .ok value) :
    ∃ again, lookup name after = (.ok value, again) ∧ again.context.Extends after.context := by
  refine ⟨(lookup name after).2, Prod.ext ?_ rfl, (lookup_keep name).extends after⟩
  change (lookup name after).1 = .ok value
  cases there : s.context.find name with
  | error fault =>
    rw [lookup_of_find_error there] at looked
    cases looked
  | ok result =>
    obtain ⟨raw, context⟩ := result
    rw [lookup_of_find_ok there] at looked
    -- The name is kept in the frame, so that the second lookup finds what the first one did.
    have called := (calledWith_keep raw context.view).extends { s with context }
    rw [looked] at called
    have remembered := (extended.trans called).find_again there
    cases raw with
    | callable f => exact steady ⟨f, context, there⟩
    | _ =>
      cases looked
      rw [lookup_of_find_ok remembered]
      rfl

def Action.each : List (Action String) → Action String
  | [] => pure ""
  | action :: rest => do
      let first ← action
      let others ← each rest
      pure (first ++ others)

namespace Value

/-- How often a section renders its body for a value. Texts and bytes are no sequences. -/
def times (value : Value) : Nat :=
  if value.isFalsy then 0
  else match value.items? with
    | some items => items.length
    | none => 1

/-- The renderings of the body of a section: one for each item of a sequence, in a frame of its own,
one for any other value that is not falsy; no frame is made for true. -/
def renderings (body : Action String) (value : Value) : List (Action String) :=
  if value.isFalsy then []
  else match value with
    | list items | tuple items => items.map fun item => Action.inFrame item body
    | bool _ => [body]
    | value => [Action.inFrame value body]

theorem length_renderings (body : Action String) (value : Value) :
    (value.renderings body).length = value.times := by
  unfold renderings times
  split
  · rfl
  · cases value with
    | list items => exact List.length_map _
    | tuple items => exact List.length_map _
    | _ => rfl

theorem renderings_keep {body : Action String} (keep : Keep body body) (value : Value) :
    ∀ rendering ∈ value.renderings body, Keep rendering rendering := by
  unfold renderings
  split
  · simp
  · have frames (items : List Value) :
        ∀ rendering ∈ items.map fun item => Action.inFrame item body, Keep rendering rendering := by
      rw [List.forall_mem_map]
      exact fun item _ => keep.inFrame item
    split
    · exact frames _
    · exact frames _
    · exact List.forall_mem_singleton.2 keep
    · exact List.forall_mem_singleton.2 (keep.inFrame value)

theorem times_eq_zero_iff {value : Value} :
    value.times = 0 ↔ (value.isFalsy || (value.items?.map List.isEmpty).getD false) = true := by
  unfold times
  cases value.isFalsy with
  | true => simp
  | false => cases value.items? <;> simp

end Value

section Sections

variable {job : Job} {inner : Job.Inner} {s found : Session} {value : Value}

theorem each_keep {actions : List (Action String)}
    (keep : ∀ action ∈ actions, Keep action action) :
    Keep (Action.each actions) (Action.each actions) := by
  induction actions with
  | nil => exact Keep.cachesInStep.pure ""
  | cons action rest ih =>
    rw [List.forall_mem_cons] at keep
    refine Keep.cachesInStep.bind keep.1 fun first => ?_
    exact Keep.cachesInStep.bind (ih keep.2) fun others => Keep.cachesInStep.pure _

theorem each_singleton (action : Action String) : Action.each [action] = action := by
  simp [Action.each]

theorem eachItem_eq_each (body : Action String) (items : List Value) :
    Job.eachItem body items = Action.each (items.map fun item => Action.inFrame item body) := by
  induction items with
  | nil => rfl
  | cons item rest ih =>
    rw [Job.eachItem, ih]
    rfl

theorem renderNode_section {opener : Token} {children : List Node} (closeStart : Nat)
    (isSection : opener.kind = .sectionTag) (looked : lookup opener.value s = (.ok value, found))
    (noFunction : ∀ f, value ≠ .callable f) :
    job.renderNode inner (.block opener children closeStart) s =
      Action.each (value.renderings (inner job children)) found := by
  rw [Job.renderNode, if_neg (by rw [isSection]; decide), Job.renderSection,
    Action.bind_of_ok looked]
  unfold Value.renderings
  split
  · rfl
  · cases value with
    | callable f => exact absurd rfl (noFunction f)
    | list items => exact congrFun (eachItem_eq_each _ items) found
    | tuple items => exact congrFun (eachItem_eq_each _ items) found
    | _ => exact (congrFun (each_singleton _) found).symm

theorem renderNode_inverted {opener : Token} {children : List Node} (closeStart : Nat)
    (isInverted : opener.kind = .invertedTag)
    (looked : lookup opener.value s = (.ok value, found)) :
    job.renderNode inner (.block opener children closeStart) s =
      if value.times = 0 then inner job children found else (.ok "", found) := by
  rw [Job.renderNode, if_pos isInverted, Job.renderInverted, Action.bind_of_ok looked]
  by_cases never : value.times = 0
  · rw [if_pos never, if_pos (Value.times_eq_zero_iff.1 never)]
  · rw [if_neg never, if_neg fun falsy => never (Value.times_eq_zero_iff.2 falsy)]
    rfl

theorem renderNodes_pair (first second : Node) :
    job.renderNodes inner [first, second] =
      (job.renderNode inner first >>= fun text =>
        job.renderNode inner second >>= fun rest => pure (text ++ rest)) := by
  rw [Job.renderNodes, Job.renderNodes_singleton]

end Sections

namespace Job

theorem render_section_or_inverted {depth : Nat} {job : Job} {opener other : Token}
    {children others : List Node} {stop stop' : Nat} {value : Value} {s found : Session}
    (isSection : opener.kind = .sectionTag) (isInverted : other.kind = .invertedTag)
    (sameName : other.value = opener.value)
    (looked : lookup opener.value s = (.ok value, found)) (noFunction : ∀ f, value ≠ .callable f)
    (steady : s.FindsFunction opener.value → ∀ text after,
      Action.each (value.renderings (Job.render depth job children)) found = (.ok text, after) →
        (lookup opener.value after).1 = .ok value) :
    let body := Job.render depth job children
    let instead := Job.render depth job others
    found.context.views = s.context.views ∧
    (value.renderings body).length = value.times ∧
    Job.render (depth + 1) job [.block opener children stop] s =
      Action.each (value.renderings body) found ∧
    Job.render (depth + 1) job [.block other others stop'] s =
      (if value.times = 0 then instead found else (.ok "", found)) ∧
    (∀ fault after, Action.each (value.renderings body) found = (.error fault, after) →
      Job.render (depth + 1) job [.block opener children stop, .block other others stop'] s =
        (.error fault, after)) ∧
    ∀ text after, Action.each (value.renderings body) found = (.ok text, after) →
      ∃ again, again.context.views = s.context.views ∧
        Job.render (depth + 1) job [.block opener children stop, .block other others stop'] s =
          if value.times = 0 then instead again else (.ok text, again) := by
  intro body instead
  have first := @renderNode_section job (Job.render depth) _ _ _ _ children stop isSection looked
    noFunction
  have second {t again : Session} (looked : lookup opener.value t = (.ok value, again)) :
      job.renderNode (Job.render depth) (.block other others stop') t =
        if value.times = 0 then instead again else (.ok "", again) :=
    renderNode_inverted stop' isInverted (sameName ▸ looked)
  have unchanged : found.context.views = s.context.views := by
    have kept := (lookup_keep opener.value).extends s
    rw [looked] at kept
    exact kept.views
  refine ⟨unchanged, value.length_renderings body, ?_, ?_, fun fault after failed => ?_,
    fun text after done => ?_⟩
  · exact (congrFun (renderNodes_singleton job _ _) s).trans first
  · exact (congrFun (renderNodes_singleton job _ _) s).trans (second looked)
  · rw [Job.render, renderNodes_pair, Action.bind_of_error (first.trans failed)]
  · have kept := (each_keep (value.renderings_keep (render_keep depth job children))).extends found
    rw [done] at kept
    obtain ⟨again, lookedAgain, extended⟩ :=
      lookup_again looked kept fun function => steady function text after done
    refine ⟨again, (extended.trans kept).views.trans unchanged, ?_⟩
    rw [Job.render, renderNodes_pair, Action.bind_of_ok (first.trans done),
      Action.bind_pure_apply, second lookedAgain]
    -- Either the first text is empty because nothing was rendered, or the second one is.
    by_cases never : value.times = 0
    · have nothing : value.renderings body = [] :=
        List.length_eq_zero_iff.1 ((value.length_renderings body).trans never)
      rw [nothing] at done
      cases done
      rw [if_pos never]
      refine Prod.ext ?_ rfl
      cases (instead again).1 with
      | error fault => rfl
      | ok rest => exact congrArg Except.ok String.empty_append
    · rw [if_neg never, if_neg never]
      exact Prod.ext (congrArg Except.ok String.append_empty) rfl

/-- A function that gives two items: the section renders its body twice, the inverted section does
not render its own. -/
theorem render_section_or_inverted_of_function :
    let twice : Value :=
      .callable (.written (.mk 0 [] true (.const (.list [.int 1, .int 2]))) 0 none [])
    let s : Session := { context := .ofView (.map [(.str "n", twice)]) }
    let opener : Token := { kind := .sectionTag, value := "n", start := 0, stop := 6 }
    let other : Token := { kind := .invertedTag, value := "n", start := 13, stop := 19 }
    let body : List Node := [.leaf { kind := .text, value := "A", start := 6, stop := 7 }]
    let others : List Node := [.leaf { kind := .text, value := "B", start := 19, stop := 20 }]
    let job : Job := ⟨{ cache := .nothing }, .null, none, .standard⟩
    s.FindsFunction "n" ∧ (lookup "n" s).1 = .ok (.list [.int 1, .int 2]) ∧
      ∃ again, Job.render 2 job [.block opener body 7, .block other others 20] s =
        (.ok "AA", again) := by
  intro twice s opener other body others job
  have looked : lookup "n" s = (.ok (.list [.int 1, .int 2]), (lookup "n" s).2) := rfl
  obtain ⟨-, -, -, -, -, both⟩ := @render_section_or_inverted 1 job opener other body others 7 20 _
    _ _ rfl rfl rfl looked (by rintro f ⟨⟩) fun _ text after done => by cases done; rfl
  obtain ⟨again, -, rendered⟩ := both "AA" _ rfl
  exact ⟨⟨_, _, rfl⟩, rfl, again, rendered⟩

end Job

end Mustache
