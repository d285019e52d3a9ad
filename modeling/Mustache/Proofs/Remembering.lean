import Mustache.Proofs.ParseInStep
import Mustache.Proofs.Preservation
import Mustache.Proofs.TreesInStep

set_option autoImplicit false

namespace Mustache

/-- What a name stands for in a chain of views, functions not called. -/
def meaning (name : String) (views : List Value) : Except HostFault Value :=
  if name = "." then .ok (Value.innermost views) else resolve name views

def Frame.Recalls (frame : Frame) (views : List Value) : Prop :=
  ∀ name value, frame.found.lookup name = some value → resolve name views = .ok value

theorem Frame.recalls_nothing (view : Value) (views : List Value) :
    Frame.Recalls ⟨view, []⟩ views := by
  rintro name value ⟨⟩

theorem Frame.Recalls.remember {frame : Frame} {views : List Value} (recalls : frame.Recalls views)
    {name : String} {value : Value} (resolved : resolve name views = .ok value) :
    Frame.Recalls { frame with found := (name, value) :: frame.found } views := by
  intro asked kept found
  rw [List.lookup_cons] at found
  by_cases same : asked = name
  · subst same
    rw [beq_self_eq_true] at found
    rwa [← Option.some.inj found]
  · rw [beq_false_of_ne same] at found
    exact recalls asked kept found

namespace Context

def Sound (context : Context) : Prop :=
  context.frame.Recalls context.views

theorem sound_push (context : Context) (view : Value) : (context.push view).Sound :=
  Frame.recalls_nothing view _

theorem sound_ofView (view : Value) : (Context.ofView view).Sound := by
  unfold Context.ofView
  split <;> exact Frame.recalls_nothing _ _

theorem views_ofView_chain (context : Context) :
    (Context.ofView (.chain context.views)).views = context.views := by
  change context.view ::
      ((context.outer.map Frame.view).map fun view => ⟨view, []⟩).map Frame.view =
    context.view :: context.outer.map Frame.view
  rw [List.map_map, List.map_map]
  rfl

theorem find_of_sound {context : Context} (sound : context.Sound) (name : String) :
    (∃ fault, meaning name context.views = .error fault ∧ context.find name = .error fault) ∨
    ∃ value after, meaning name context.views = .ok value ∧
      context.find name = .ok (value, after) ∧ after.views = context.views ∧ after.Sound := by
  unfold find meaning
  by_cases dot : name = "."
  · rw [if_pos dot, if_pos dot]
    exact .inr ⟨_, _, rfl, rfl, rfl, sound⟩
  · rw [if_neg dot, if_neg dot]
    cases remembered : context.frame.found.lookup name with
    | some value =>
      exact .inr ⟨value, context, sound name value remembered, rfl, rfl, sound⟩
    | none =>
      cases resolved : resolve name context.views with
      | error fault => exact .inl ⟨fault, rfl, rfl⟩
      | ok value => exact .inr ⟨value, _, rfl, rfl, rfl, Frame.Recalls.remember sound resolved⟩

end Context

/-- Two sessions that are the same but for their chains, each with its views, and for what frames
remember. -/
structure Session.Alike (views views' : List Value) (first second : Session) : Prop where
  caches : first.caches = second.caches
  calls : first.calls = second.calls
  nextSerial : first.nextSerial = second.nextSerial
  scope : first.scope = second.scope
  log : first.log = second.log
  inViews : first.context.views = views
  inViews' : second.context.views = views'
  sound : first.context.Sound
  sound' : second.context.Sound

namespace Session.Alike

variable {views views' next next' : List Value} {s t : Session}

theorem withContext (alike : Session.Alike views views' s t) {first second : Context}
    (inViews : first.views = next) (inViews' : second.views = next') (sound : first.Sound)
    (sound' : second.Sound) :
    Session.Alike next next' { s with context := first } { t with context := second } :=
  { alike with inViews, inViews', sound, sound' }

theorem push (alike : Session.Alike views views' s t) (view view' : Value) :
    Session.Alike (view :: views) (view' :: views') { s with context := s.context.push view }
      { t with context := t.context.push view' } :=
  alike.withContext (congrArg (view :: ·) alike.inViews) (congrArg (view' :: ·) alike.inViews')
    (s.context.sound_push view) (t.context.sound_push view')

theorem eq_of_context (alike : Session.Alike views views' s t) (context : Context) :
    ({ s with context } : Session) = { t with context } := by
  obtain ⟨caches, calls, nextSerial, scope, log, -⟩ := alike
  rw [caches, calls, nextSerial, scope, log]

end Session.Alike

theorem scopeShared_alike (views views' : List Value) :
    ScopeShared (Session.Alike views views') where
  scope alike := alike.scope
  withScope _ alike := { alike with scope := rfl }
  record event alike := { alike with log := congrArg (event :: ·) alike.log }

namespace Action

variable {α β : Type}

theorem Preserve.all_cachesInStep {ι : Type} {related : ι → Session → Session → Prop}
    (shared : ∀ i, ScopeShared (related i))
    (onShared : ∀ {α : Type} {step : Session.Shared → α × Session.Shared},
      Session.Shared.Taken step → ∀ i,
        Preserve (related i) (Action.onShared step) (Action.onShared step))
    (onCaches : ∀ {α : Type} (step : List TreeCache → α × List TreeCache) (i : ι),
      Preserve (related i) (Action.onCaches step) (Action.onCaches step)) :
    CachesInStep fun _ first second => ∀ i, Preserve (related i) first second where
  pure value _ := .pure value
  throw fault _ _ := .throw fault
  bind preserve onward i := (preserve i).bind fun value => onward value i
  onShared := onShared
  record event _ i := .record (shared i) event
  recordCall i := .recordCall (shared i)
  ask field i := .ask (shared i) field
  attempt preserve onward failed i := (preserve i).attempt fun outcome => by
    cases outcome with
    | ok value => exact onward value i
    | error fault => exact failed fault (fun _ => .throw fault) i
  onCaches := onCaches
  recordParse event _ i := .record (shared i) event

section Chains

variable {views views' : List Value}

theorem onCaches_alike (step : List TreeCache → α × List TreeCache) :
    Preserve (Session.Alike views views') (Action.onCaches step) (Action.onCaches step) := by
  intro s t alike
  unfold Action.onCaches
  rw [alike.caches]
  exact ⟨rfl, { alike with caches := rfl }⟩

theorem onShared_alike {step : Session.Shared → α × Session.Shared}
    (taken : Session.Shared.Taken step) :
    Preserve (Session.Alike views views') (Action.onShared step) (Action.onShared step) := by
  cases taken with
  | count identity =>
    intro s t alike
    unfold Action.onShared Session.Shared.count Session.shared
    rw [alike.calls]
    exact ⟨rfl, { alike with calls := rfl }⟩
  | make code owner args =>
    intro s t alike
    unfold Action.onShared Session.Shared.make Session.shared
    rw [alike.nextSerial]
    exact ⟨rfl, { alike with nextSerial := rfl }⟩

theorem Preserve.alike_cachesInStep (views views' : List Value) :
    CachesInStep fun _ => Preserve (Session.Alike views views') where
  toCatchInStep := Preserve.inStep (scopeShared_alike views views') onShared_alike
  onCaches := onCaches_alike
  recordParse event _ := .record (scopeShared_alike views views') event

end Chains

/-- Two actions with the same outcome, whatever the frames that they run in remember. They change
no views. -/
def Alike (first second : Action α) : Prop :=
  ∀ views, Preserve (Session.Alike views views) first second

namespace Alike

theorem find (name : String) :
    Alike (Action.onShared (Session.Shared.find name))
      (Action.onShared (Session.Shared.find name)) := by
  intro views s t alike
  unfold Action.onShared Session.Shared.find Session.shared
  have finds := Context.find_of_sound alike.sound name
  have finds' := Context.find_of_sound alike.sound' name
  rw [alike.inViews] at finds
  rw [alike.inViews'] at finds'
  -- Both contexts are asked for the same name, which means the same in both.
  obtain ⟨fault, means, failed⟩ | ⟨value, after, means, done, same, sound⟩ := finds <;>
    obtain ⟨fault', means', failed'⟩ | ⟨value', after', means', done', same', sound'⟩ := finds' <;>
    cases means.symm.trans means'
  · rw [failed, failed']
    exact ⟨rfl, alike⟩
  · rw [done, done']
    have view : after.view = after'.view := (List.cons.inj (same.trans same'.symm)).1
    dsimp only
    rw [view]
    exact ⟨rfl, alike.withContext same same' sound sound'⟩

theorem cachesInStep : CachesInStep fun _ => Alike :=
  Preserve.all_cachesInStep (fun views => scopeShared_alike views views)
    (fun taken _ => onShared_alike taken) fun step _ => onCaches_alike step

section Around

variable {first second : Action α} (alike : Alike first second)

include alike

theorem inRender (engine : Engine) (name : Option String) :
    Alike (engine.inRender name first) (engine.inRender name second) :=
  fun views => .inRender (scopeShared_alike views views) (alike views) engine name

theorem inPartial (name : String) :
    Alike (Action.inPartial name first) (Action.inPartial name second) :=
  fun views => .inPartial (scopeShared_alike views views) (alike views) name

theorem inFrame (view : Value) :
    Alike (Action.inFrame view first) (Action.inFrame view second) := by
  intro views s t start
  obtain ⟨outcome, still⟩ := alike (view :: views) _ _ (start.push view view)
  exact ⟨outcome, still.withContext start.inViews start.inViews' start.sound start.sound'⟩

theorem inContext {context context' : Context} (views : context.views = context'.views)
    (sound : context.Sound) (sound' : context'.Sound) (s : Session) :
    Action.inContext context first s = Action.inContext context' second s := by
  have start : Session.Alike context'.views context'.views { s with context }
      { s with context := context' } :=
    ⟨rfl, rfl, rfl, rfl, rfl, views, rfl, sound, sound'⟩
  obtain ⟨outcome, still⟩ := alike _ _ _ start
  exact Prod.ext outcome (still.eq_of_context s.context)

end Around

end Alike

end Action

namespace Job

open Mustache.Action (Alike)

theorem rememberingInStep :
    TreesInStep (fun _ : Unit => fun _ => Alike) (fun _ : Unit => fun _ => Alike) (fun _ _ => ()) id
      (fun _ _ => True) where
  steps _ := Alike.cachesInStep.toInStep
  catches _ := Alike.cachesInStep.toCatchInStep
  find _ := Alike.find
  weaken := id
  escaper _ := rfl
  partials _ := rfl
  source _ := rfl
  withSource _ _ := rfl
  part _ _ := trivial
  inFrame view alike := alike.inFrame view
  inRender job alike := alike.inRender job.engine none
  inPartial name alike := alike.inPartial name
  parse source _ onward answered := by
    refine Alike.cachesInStep.bind (Engine.parse_inStep Alike.cachesInStep _ _ _ _) fun tree => ?_
    cases tree with
    | parsed nodes => exact onward nodes trivial
    | foreign answer => exact answered answer
  lambda _ _ _ views := .record (scopeShared_alike views views) _
  sourceless _ _ _ _ := .throw _

theorem start_alike (depth : Nat) (job : Job) (tree : Tree) :
    Alike (job.start depth tree) (job.start depth tree) :=
  rememberingInStep.renderTree (rememberingInStep.render_same depth) () fun _ _ => trivial

end Job

theorem lookup_alike (name : String) : Action.Alike (lookup name) (lookup name) :=
  lookup_inStep Action.Alike.cachesInStep.toCatchInStep (.find name)

end Mustache
