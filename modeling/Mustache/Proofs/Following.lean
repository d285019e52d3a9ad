import Mustache.Proofs.Data
import Mustache.Proofs.MemoizedLookups
import Mustache.Proofs.ParsedTrees

set_option autoImplicit false

namespace Mustache

def Event.ParsesOnly (admitted : List Node → Prop) (event : Event) : Prop :=
  ∀ nodes, event.tree? = some nodes → admitted nodes

/-- Two actions with the same outcome from related sessions, which stay related, as long as the
first one parses no tree that is not admitted. -/
structure Action.FollowWhile {α : Type} (admitted : List Node → Prop)
    (related : Session → Session → Prop) (first second : Action α) : Prop where
  grows : first.Grows
  follows (s t : Session) (happened : List Event) : related s t →
    (first s).2.log = happened ++ s.log → (∀ event ∈ happened, event.ParsesOnly admitted) →
      (first s).1 = (second t).1 ∧ related (first s).2 (second t).2

namespace Action.FollowWhile

variable {admitted : List Node → Prop} {related : Session → Session → Prop} {α β : Type}

theorem of_preserve {first second : Action α} (grows : first.Grows)
    (preserve : Preserve related first second) : FollowWhile admitted related first second :=
  ⟨grows, fun s t _ start _ _ => preserve s t start⟩

theorem pure (value : α) : FollowWhile admitted related (pure value) (pure value) :=
  of_preserve (.silent fun _ => rfl) (.pure value)

theorem throw (fault : Fault) :
    FollowWhile admitted related (throw fault : Action α) (throw fault) :=
  of_preserve (.silent fun _ => rfl) (.throw fault)

theorem ofExcept (outcome : Except Fault α) :
    FollowWhile admitted related (Action.ofExcept outcome) (Action.ofExcept outcome) :=
  of_preserve (.ofExcept outcome) (.ofExcept outcome)

theorem ofHost (outcome : Except HostFault α) :
    FollowWhile admitted related (Action.ofHost outcome) (Action.ofHost outcome) :=
  of_preserve (Grows.cachesInStep.toInStep.ofHost outcome) (.ofHost outcome)

theorem bind_of_given {first second : Action α} {next next' : α → Action β}
    (follow : FollowWhile admitted related first second) (grows : ∀ value, (next value).Grows)
    (onward : ∀ value, (∃ s, (first s).1 = .ok value) →
      FollowWhile admitted related (next value) (next' value)) :
    FollowWhile admitted related (first >>= next) (second >>= next') := by
  refine ⟨follow.grows.bind grows, ?_⟩
  intro s t happened start logged admits
  obtain ⟨earlier, grown⟩ := follow.grows.exists_logged s
  have together := follow.follows s t earlier start grown
  cases ran : first s with
  | mk outcome after =>
    cases ran' : second t with
    | mk outcome' after' =>
      rw [ran] at grown
      rw [ran, ran'] at together
      cases outcome with
      | error fault =>
        rw [bind_of_error ran] at logged ⊢
        have same := List.append_cancel_right (logged.symm.trans grown)
        obtain ⟨rfl, still⟩ := together (same ▸ admits)
        rw [bind_of_error ran']
        exact ⟨rfl, still⟩
      | ok value =>
        rw [bind_of_ok ran] at logged ⊢
        obtain ⟨later, grown'⟩ := (grows value).exists_logged after
        have same : happened = later ++ earlier := by
          refine List.append_cancel_right (logged.symm.trans (grown'.trans ?_))
          rw [List.append_assoc, grown]
        rw [same, List.forall_mem_append] at admits
        obtain ⟨rfl, still⟩ := together admits.2
        rw [bind_of_ok ran']
        exact (onward value ⟨s, by rw [ran]⟩).follows after after' later still grown' admits.1

theorem bind {first second : Action α} {next next' : α → Action β}
    (follow : FollowWhile admitted related first second)
    (onward : ∀ value, FollowWhile admitted related (next value) (next' value)) :
    FollowWhile admitted related (first >>= next) (second >>= next') :=
  follow.bind_of_given (fun value => (onward value).grows) fun value _ => onward value

section Scopes

variable (shared : ScopeShared related) {first second : Action α}

include shared

theorem record (event : Event) :
    FollowWhile admitted related (Action.record event) (Action.record event) :=
  of_preserve (.record trivial) (.record shared event)

variable (follow : FollowWhile admitted related first second)

include follow

theorem inScope (scope : Scope) :
    FollowWhile admitted related (Action.inScope scope first) (Action.inScope scope second) := by
  refine ⟨follow.grows.inScope scope, fun s t happened start logged admits => ?_⟩
  obtain ⟨outcome, still⟩ := follow.follows _ _ happened
    (shared.withScope (some scope) start) logged admits
  have restored := shared.withScope s.scope still
  refine ⟨outcome, ?_⟩
  change related { (first _).2 with scope := s.scope } { (second _).2 with scope := t.scope }
  rwa [← shared.scope start]

theorem inRender (engine : Engine) (name : Option String) :
    FollowWhile admitted related (engine.inRender name first) (engine.inRender name second) := by
  refine ⟨follow.grows.inRender engine name, fun s t happened start logged admits => ?_⟩
  cases within : s.scope with
  | none =>
    rw [engine.inRender_outside name first within] at logged ⊢
    rw [engine.inRender_outside name second ((shared.scope start).symm.trans within)]
    exact (follow.inScope shared _).follows s t happened start logged admits
  | some scope =>
    rw [engine.inRender_within name first within] at logged ⊢
    rw [engine.inRender_within name second ((shared.scope start).symm.trans within)]
    exact follow.follows s t happened start logged admits

theorem whileOpen (name : String) :
    FollowWhile admitted related (Action.whileOpen name first) (Action.whileOpen name second) := by
  refine (record shared _).bind fun _ => ?_
  exact follow.bind fun value => (record shared _).bind fun _ => .pure value

theorem inPartial (name : String) :
    FollowWhile admitted related (Action.inPartial name first) (Action.inPartial name second) := by
  refine ⟨follow.grows.inPartial name, fun s t happened start logged admits => ?_⟩
  cases within : s.scope with
  | none =>
    rw [inPartial_outside name first within] at logged ⊢
    rw [inPartial_outside name second ((shared.scope start).symm.trans within)]
    exact (follow.whileOpen shared name).follows s t happened start logged admits
  | some scope =>
    rw [inPartial_within name first within] at logged ⊢
    rw [inPartial_within name second ((shared.scope start).symm.trans within)]
    have inside := (follow.inScope shared (scope.child name)).whileOpen shared name
    exact ((ofExcept (scope.check name)).bind fun _ => inside).follows s t happened start logged
      admits

end Scopes

end Action.FollowWhile

section Lookups

variable {name : String} {value : Value} {views : List Value} {s : Session}

theorem isData_of_meaning (data : ∀ view ∈ views, view.isData = true)
    (means : meaning name views = .ok value) : value.isData = true := by
  unfold meaning at means
  split at means
  next =>
    obtain rfl := Except.ok.inj means
    cases views with
    | nil => rfl
    | cons view outer => exact data view List.mem_cons_self
  next => exact isData_of_resolve data means

theorem lookup_of_meaning (sound : s.context.Sound)
    (means : meaning name s.context.views = .ok value) (data : value.isData = true) :
    ∃ after, lookup name s = (.ok value, { s with context := after }) ∧
      after.views = s.context.views ∧ after.Sound := by
  obtain ⟨fault, failed, -⟩ | ⟨found, after, means', there, views, still⟩ :=
    Context.find_of_sound sound name
  · rw [means] at failed
    cases failed
  · rw [means] at means'
    cases means'
    refine ⟨after, ?_, views, still⟩
    rw [lookup_of_find_ok there]
    cases value with
    | callable f => contradiction
    | _ => rfl

theorem lookup_of_meaningless {fault : HostFault} (sound : s.context.Sound)
    (means : meaning name s.context.views = .error fault) :
    lookup name s = (.error (.host fault), s) := by
  obtain ⟨_, means', failed⟩ | ⟨_, _, means', -⟩ := Context.find_of_sound sound name
  · rw [means] at means'
    cases means'
    exact lookup_of_find_error failed
  · rw [means] at means'
    cases means'

end Lookups

structure Session.Mirrors (engine : Engine) (pair : Delimiters) (views views' : List Value)
    (first second : Session) : Prop extends Session.Alike views views' first second where
  finds : engine.FindsOwn pair first.caches

open Mustache.Action (FollowWhile)

theorem scopeShared_mirrors (engine : Engine) (pair : Delimiters) (views views' : List Value) :
    ScopeShared (Session.Mirrors engine pair views views') where
  scope mirrors := mirrors.scope
  withScope scope mirrors :=
    ⟨(scopeShared_alike views views').withScope scope mirrors.toAlike, mirrors.finds⟩
  record event mirrors :=
    ⟨(scopeShared_alike views views').record event mirrors.toAlike, mirrors.finds⟩

section Steps

variable {engine : Engine} {pair : Delimiters} {views views' : List Value} {α : Type}
  {first second : Action α} {admitted : List Node → Prop}

theorem mirrors_inStep (engine : Engine) (pair : Delimiters) (views views' : List Value) :
    CatchInStep fun _ => Action.Preserve (Session.Mirrors engine pair views views') :=
  Action.Preserve.inStep (scopeShared_mirrors engine pair views views') fun taken s t start =>
    let ⟨outcome, still⟩ := Action.onShared_alike taken s t start.toAlike
    ⟨outcome, still, start.finds⟩

theorem follow_resolvePartial (name : String) (partials : Value) :
    FollowWhile admitted (Session.Mirrors engine pair views views') (resolvePartial name partials)
      (resolvePartial name partials) :=
  .of_preserve (resolvePartial_inStep Action.Grows.cachesInStep.toCatchInStep name partials)
    (resolvePartial_inStep (mirrors_inStep engine pair views views') name partials)

theorem follow_inFrame {value : Value}
    (follow : FollowWhile admitted
      (Session.Mirrors engine pair (value :: views) (value :: views')) first second) :
    FollowWhile admitted (Session.Mirrors engine pair views views') (Action.inFrame value first)
      (Action.inFrame value second) := by
  refine ⟨follow.grows.inFrame value, fun s t happened start logged admits => ?_⟩
  obtain ⟨outcome, still⟩ := follow.follows _ _ happened
    ⟨start.push value value, start.finds⟩ logged admits
  exact ⟨outcome, still.withContext start.inViews start.inViews' start.sound start.sound',
    still.finds⟩

theorem follow_inFrame_left {value : Value}
    (follow : FollowWhile admitted
      (Session.Mirrors engine pair (value :: views) views') first second) :
    FollowWhile admitted (Session.Mirrors engine pair views views') (Action.inFrame value first)
      second := by
  refine ⟨follow.grows.inFrame value, fun s t happened start logged admits => ?_⟩
  have pushed : Session.Mirrors engine pair (value :: views) views'
      { s with context := s.context.push value } t :=
    ⟨start.withContext (congrArg (value :: ·) start.inViews) start.inViews'
      (s.context.sound_push value) start.sound', start.finds⟩
  obtain ⟨outcome, still⟩ := follow.follows _ _ happened pushed logged admits
  exact ⟨outcome, still.withContext start.inViews still.inViews' start.sound still.sound',
    still.finds⟩

section Lookups

variable {name name' : String} {value value' : Value} {next next' : Value → Action α}
  (grows : (lookup name >>= next).Grows)

include grows

theorem follow_lookups (means : meaning name views = .ok value) (data : value.isData = true)
    (means' : meaning name' views' = .ok value') (data' : value'.isData = true)
    (onward : FollowWhile admitted (Session.Mirrors engine pair views views') (next value)
      (next' value')) :
    FollowWhile admitted (Session.Mirrors engine pair views views') (lookup name >>= next)
      (lookup name' >>= next') := by
  refine ⟨grows, fun s t happened start logged admits => ?_⟩
  rw [← start.inViews] at means
  rw [← start.inViews'] at means'
  obtain ⟨after, found, same, sound⟩ := lookup_of_meaning start.sound means data
  obtain ⟨after', found', same', sound'⟩ := lookup_of_meaning start.sound' means' data'
  rw [Action.bind_of_ok found] at logged ⊢
  rw [Action.bind_of_ok found']
  exact onward.follows _ _ happened ⟨start.withContext (same.trans start.inViews)
    (same'.trans start.inViews') sound sound', start.finds⟩ logged admits

theorem follow_lookup (same : meaning name views = meaning name views')
    (data : ∀ value, meaning name views = .ok value → value.isData = true)
    (onward : ∀ value, meaning name views = .ok value → value.isData = true →
      FollowWhile admitted (Session.Mirrors engine pair views views') (next value)
        (next' value)) :
    FollowWhile admitted (Session.Mirrors engine pair views views') (lookup name >>= next)
      (lookup name >>= next') := by
  cases means : meaning name views with
  | ok value =>
    have isData := data value means
    exact follow_lookups grows means isData (same.symm.trans means) isData
      (onward value means isData)
  | error fault =>
    refine ⟨grows, fun s t happened start logged admits => ?_⟩
    have means' := same.symm.trans means
    rw [← start.inViews] at means
    rw [← start.inViews'] at means'
    rw [Action.bind_of_error (lookup_of_meaningless start.sound means),
      Action.bind_of_error (lookup_of_meaningless start.sound' means')]
    exact ⟨rfl, start⟩

end Lookups

theorem follow_parse {next next' : Tree → Action α} (source : String)
    (grows : ∀ tree, (next tree).Grows)
    (onward : ∀ nodes, parseTemplate source pair = .ok nodes → admitted nodes →
      FollowWhile admitted (Session.Mirrors engine pair views views') (next (.parsed nodes))
        (next' (.parsed nodes))) :
    FollowWhile admitted (Session.Mirrors engine pair views views')
      (engine.parse source pair >>= next) (engine.parse source pair >>= next') := by
  refine ⟨.bind (Engine.parse_inStep Action.Grows.cachesInStep engine source pair none) grows, ?_⟩
  intro s t happened start logged admits
  obtain ⟨outcome, finds⟩ := start.finds.parse source
  obtain ⟨event, told, tree⟩ := engine.parse_logs source start.finds
  have alike := Action.Preserve.alike_cachesInStep views views'
  obtain ⟨same, still⟩ := Engine.parse_inStep alike engine source pair none s t start.toAlike
  cases ran : engine.parse source pair none s with
  | mk first after =>
    cases ran' : engine.parse source pair none t with
    | mk second after' =>
      rw [ran] at outcome finds told
      rw [ran, ran'] at same still
      obtain rfl : first = second := same
      cases parsed : parseTemplate source pair with
      | error fault =>
        rw [parsed] at outcome
        obtain rfl : first = .error fault := outcome
        rw [Action.bind_of_error ran, Action.bind_of_error ran']
        exact ⟨rfl, still, finds⟩
      | ok nodes =>
        rw [parsed] at outcome tree
        obtain rfl : first = .ok (.parsed nodes) := outcome
        rw [Action.bind_of_ok ran] at logged ⊢
        rw [Action.bind_of_ok ran']
        obtain ⟨later, grown⟩ := (grows (.parsed nodes)).exists_logged after
        have whole : happened = later ++ [event] := by
          refine List.append_cancel_right (logged.symm.trans (grown.trans ?_))
          rw [List.append_assoc, told]
          rfl
        rw [whole, List.forall_mem_append, List.forall_mem_singleton] at admits
        exact (onward nodes parsed (admits.2 nodes tree)).follows after after' later
          ⟨still, finds⟩ grown admits.1

end Steps

theorem Engine.renderTree_of_follow {engine : Engine} {pair : Delimiters} {s : Session}
    (finds : engine.FindsOwn pair s.caches) {view view' partials : Value} {depth : Nat}
    {tree tree' : Tree} {source name : Option String} {admitted : List Node → Prop}
    (follow : FollowWhile admitted
      (Session.Mirrors engine pair (Context.ofView view).views (Context.ofView view').views)
      (Job.start depth ⟨engine, partials, source, pair⟩ tree)
      (Job.start depth ⟨engine, partials, source, pair⟩ tree'))
    (admits : ∀ nodes ∈
      (engine.renderTree depth tree view partials source pair name).parsedTrees s, admitted nodes) :
    (engine.renderTree depth tree view partials source pair name s).1 =
      (engine.renderTree depth tree' view' partials source pair name s).1 := by
  have follow := follow.inRender (scopeShared_mirrors _ _ _ _) engine name
  obtain ⟨happened, logged⟩ := Action.Grows.exists_logged (follow.grows.inContext (.ofView view)) s
  have events : ∀ event ∈ happened, event.ParsesOnly admitted := by
    intro event member nodes told
    unfold renderTree at admits
    rw [Action.parsedTrees_eq logged] at admits
    exact admits nodes (List.mem_filterMap.2 ⟨event, member, told⟩)
  have start : Session.Mirrors engine pair (Context.ofView view).views
      (Context.ofView view').views { s with context := .ofView view }
      { s with context := .ofView view' } :=
    ⟨⟨rfl, rfl, rfl, rfl, rfl, rfl, rfl, Context.sound_ofView view, Context.sound_ofView view'⟩,
      finds⟩
  exact (follow.follows _ _ happened start logged events).1

end Mustache
