import Mustache.Proofs.OpenPartials

set_option autoImplicit false

namespace Mustache

/-- The calls of functions, each in its scope and with the partials that were open then; the last
event comes first. -/
def callsIn : List Event → List (Option Scope × List String)
  | [] => []
  | .called scope :: earlier => (scope, openPartials earlier) :: callsIn earlier
  | _ :: earlier => callsIn earlier

namespace Scope

structure Consistent (scope : Scope) : Prop where
  depth : scope.partialDepth = scope.partialStack.length
  room : ∀ most, scope.maxPartialDepth = some most → 0 ≤ most → scope.partialDepth ≤ most

structure Tells (outermost : Scope) (opened : List String) (scope : Scope) : Prop where
  consistent : scope.Consistent
  templateName : scope.templateName = outermost.templateName
  maxPartialDepth : scope.maxPartialDepth = outermost.maxPartialDepth
  partialStack : scope.partialStack = outermost.partialStack ++ opened

def ToldIn (outermost : Scope) (happened : List Event) : Prop :=
  ∀ call ∈ callsIn happened, ∃ scope, call.1 = some scope ∧ outermost.Tells call.2 scope

variable {outermost scope : Scope} {opened : List String} {name : String}

theorem Consistent.tells (consistent : outermost.Consistent) : outermost.Tells [] outermost :=
  ⟨consistent, rfl, rfl, (List.append_nil _).symm⟩

theorem consistent_of_none (name : Option String) (limit : Option Int) :
    Consistent { templateName := name, maxPartialDepth := limit } :=
  ⟨rfl, fun _ _ natural => natural⟩

theorem Tells.child (tells : outermost.Tells opened scope) (checked : scope.check name = .ok ()) :
    outermost.Tells (opened ++ [name]) (scope.child name) where
  templateName := tells.templateName
  maxPartialDepth := tells.maxPartialDepth
  partialStack := by
    rw [Scope.child, tells.partialStack, List.append_assoc]
  consistent :=
    { depth := by simp [Scope.child, tells.consistent.depth]
      room := by
        intro most limited _
        have allowed : scope.maxPartialDepth = some most := limited
        simp only [check, allowed] at checked
        by_cases less : (scope.partialDepth : Int) < most
        · exact Int.add_one_le_of_lt less
        · rw [if_neg less] at checked
          cases checked }

end Scope

/-- From one session to a later one, every function was called in a scope that tells the outermost
one and the partials that were open. -/
def Session.CallsTell (outermost : Scope) (before after : Session) : Prop :=
  ∃ happened, after.log = happened ++ before.log ∧ outermost.ToldIn happened

theorem Session.CallsTell.refl (outermost : Scope) (s : Session) : s.CallsTell outermost s :=
  ⟨[], rfl, List.forall_mem_nil _⟩

structure Session.Stands (outermost : Scope) (origin : List Event) (opened : List String)
    (s : Session) : Prop where
  scope : ∃ scope, s.scope = some scope ∧ outermost.Tells opened scope
  logged : ∃ happened, s.log = happened ++ origin ∧ outermost.ToldIn happened ∧
    openPartials happened = opened

section Standing

variable {outermost scope : Scope} {origin : List Event} {opened : List String} {name : String}
  {s after : Session}

theorem Session.Stands.opening (stands : s.Stands outermost origin opened)
    (tells : outermost.Tells (opened ++ [name]) scope) :
    Session.Stands outermost origin (opened ++ [name])
      { s with scope := some scope, log := .partialOpened name :: s.log } := by
  obtain ⟨happened, logged, told, same⟩ := stands.logged
  refine ⟨⟨scope, rfl, tells⟩, ⟨.partialOpened name :: happened, congrArg _ logged, told, ?_⟩⟩
  rw [openPartials, same]

theorem Session.Stands.closing (stands : after.Stands outermost origin (opened ++ [name]))
    (tells : outermost.Tells opened scope) :
    Session.Stands outermost origin opened
      { after with scope := some scope, log := .partialClosed :: after.log } := by
  obtain ⟨happened, logged, told, same⟩ := stands.logged
  refine ⟨⟨scope, rfl, tells⟩, ⟨.partialClosed :: happened, congrArg _ logged, told, ?_⟩⟩
  rw [openPartials, same, List.dropLast_concat]

theorem Session.Stands.told (stands : s.Stands outermost origin opened) :
    ∃ happened, s.log = happened ++ origin ∧ outermost.ToldIn happened := by
  obtain ⟨happened, logged, told, -⟩ := stands.logged
  exact ⟨happened, logged, told⟩

end Standing

def Event.StaysIn (scope : Option Scope) : Event → Prop
  | .partialOpened _ | .partialClosed => False
  | .called current => current = scope
  | _ => True

theorem Event.Ordinary.staysIn {event : Event} (ordinary : event.Ordinary)
    (scope : Option Scope) : event.StaysIn scope := by
  cases event <;> trivial

theorem Event.OfParse.staysIn {event : Event} (ofParse : event.OfParse) (scope : Option Scope) :
    event.StaysIn scope := by
  cases event <;> trivial

section Staying

variable {outermost scope : Scope} {happened more : List Event}

theorem openPartials_cons_of_staysIn {event : Event} {current : Option Scope}
    (stays : event.StaysIn current) : openPartials (event :: happened) = openPartials happened := by
  cases event <;> first | rfl | cases stays

theorem openPartials_append_of_staysIn {current : Option Scope}
    (stays : ∀ event ∈ more, event.StaysIn current) :
    openPartials (more ++ happened) = openPartials happened := by
  induction more with
  | nil => rfl
  | cons event more ih =>
    rw [List.forall_mem_cons] at stays
    rw [List.cons_append, openPartials_cons_of_staysIn stays.1, ih stays.2]

theorem Scope.ToldIn.cons {event : Event} (told : outermost.ToldIn happened)
    (stays : event.StaysIn (some scope)) (tells : outermost.Tells (openPartials happened) scope) :
    outermost.ToldIn (event :: happened) := by
  cases event with
  | called current =>
    obtain rfl : current = some scope := stays
    exact List.forall_mem_cons.2 ⟨⟨scope, rfl, tells⟩, told⟩
  | _ => exact told

theorem Scope.ToldIn.append (told : outermost.ToldIn happened)
    (stays : ∀ event ∈ more, event.StaysIn (some scope))
    (tells : outermost.Tells (openPartials happened) scope) :
    outermost.ToldIn (more ++ happened) := by
  induction more with
  | nil => exact told
  | cons event more ih =>
    rw [List.forall_mem_cons] at stays
    refine (ih stays.2).cons stays.1 ?_
    rwa [openPartials_append_of_staysIn stays.2]

end Staying

namespace Action

variable {α β : Type}

def KeepsScope (action : Action α) : Prop :=
  ∀ s : Session, (action s).2.scope = s.scope

theorem KeepsScope.bind {action : Action α} {next : α → Action β} (keeps : action.KeepsScope)
    (onward : ∀ value, (next value).KeepsScope) : (action >>= next).KeepsScope := by
  intro s
  have same := keeps s
  cases ran : action s with
  | mk outcome after =>
    rw [ran] at same
    cases outcome with
    | ok value =>
      rw [bind_of_ok ran]
      exact (onward value after).trans same
    | error fault =>
      rw [bind_of_error ran]
      exact same

theorem keepsScope_inScope (scope : Scope) (action : Action α) :
    (Action.inScope scope action).KeepsScope :=
  fun _ => rfl

section Around

variable {action : Action α} (keeps : action.KeepsScope)

include keeps

theorem KeepsScope.inContext (context : Context) : (Action.inContext context action).KeepsScope :=
  fun s => keeps { s with context }

theorem KeepsScope.inFrame (view : Value) : (Action.inFrame view action).KeepsScope :=
  fun s => keeps.inContext (s.context.push view) s

theorem KeepsScope.inRender (engine : Engine) (name : Option String) :
    (engine.inRender name action).KeepsScope := by
  intro s
  cases within : s.scope with
  | none =>
    rw [engine.inRender_outside name action within, keepsScope_inScope _ action s, within]
  | some scope => rw [engine.inRender_within name action within, keeps s, within]

omit keeps in
theorem keepsScope_ofExcept (outcome : Except Fault α) : (Action.ofExcept outcome).KeepsScope := by
  cases outcome <;> exact fun _ => rfl

theorem KeepsScope.whileOpen (name : String) : (Action.whileOpen name action).KeepsScope := by
  have recorded (event : Event) : (Action.record event).KeepsScope := fun _ => rfl
  refine (recorded (.partialOpened name)).bind fun _ => ?_
  exact keeps.bind fun value => (recorded .partialClosed).bind fun _ _ => rfl

theorem KeepsScope.inPartial (name : String) : (Action.inPartial name action).KeepsScope := by
  intro s
  cases here : s.scope with
  | none => rw [inPartial_outside name action here, keeps.whileOpen name s, here]
  | some scope =>
    have inside := (keepsScope_inScope (scope.child name) action).whileOpen name
    have checked := (keepsScope_ofExcept (scope.check name)).bind fun _ => inside
    rw [inPartial_within name action here, checked s, here]

end Around

/-- An action that keeps the scope and calls functions in it, and opens and closes no partials. -/
structure Stays (action : Action α) : Prop where
  scope : action.KeepsScope
  logs (s : Session) : s.Extends (Event.StaysIn s.scope) (action s).2

namespace Stays

theorem quiet {action : Action α} (scope : action.KeepsScope)
    (silent : ∀ s, (action s).2.log = s.log) : action.Stays :=
  ⟨scope, fun s => .of_eq (silent s)⟩

theorem record {event : Event} (stays : ∀ scope, event.StaysIn scope) :
    (Action.record event).Stays :=
  ⟨fun _ => rfl, fun s => ⟨[event], rfl, by simpa using stays s.scope⟩⟩

theorem bind {action : Action α} {next : α → Action β} (stays : action.Stays)
    (onward : ∀ value, (next value).Stays) : (action >>= next).Stays where
  scope := stays.scope.bind fun value => (onward value).scope
  logs s := by
    have before := stays.logs s
    have same := stays.scope s
    cases ran : action s with
    | mk outcome after =>
      rw [ran] at before same
      cases outcome with
      | ok value =>
        have later := (onward value).logs after
        rw [same] at later
        rw [bind_of_ok ran]
        exact before.trans later
      | error fault =>
        rw [bind_of_error ran]
        exact before

theorem attempt {action : Action α} {next : Except Fault α → Action β} (stays : action.Stays)
    (onward : ∀ outcome, (next outcome).Stays) : (Action.attempt action >>= next).Stays := by
  -- To look at an outcome, whatever it is, is to go on from a success.
  have attempted : (Action.attempt action).Stays := ⟨stays.scope, stays.logs⟩
  exact attempted.bind onward

theorem cachesInStep : CachesInStep fun _ action _ => action.Stays where
  pure _ := quiet (fun _ => rfl) fun _ => rfl
  throw _ _ := quiet (fun _ => rfl) fun _ => rfl
  bind := bind
  onShared _ := quiet (fun _ => rfl) fun _ => rfl
  record _ ordinary := record ordinary.staysIn
  recordCall := ⟨fun _ => rfl, fun s => ⟨[.called s.scope], rfl, by simp [Event.StaysIn]⟩⟩
  ask field := ⟨fun _ => rfl, fun s => ⟨[.scopeRead field], rfl, by simp [Event.StaysIn]⟩⟩
  attempt stays onward failed := stays.attempt fun outcome => by
    cases outcome with
    | ok value => exact onward value
    | error fault => exact failed fault (quiet (fun _ => rfl) fun _ => rfl)
  onCaches _ := quiet (fun _ => rfl) fun _ => rfl
  recordParse _ ofParse := record ofParse.staysIn

end Stays

/-- An action that keeps the scope, and where the partials are open calls functions in scopes that
tell so. After a value these partials are open again. -/
structure Tells (outermost : Scope) (origin : List Event) (opened : List String)
    (action : Action α) : Prop where
  scope : action.KeepsScope
  told (s : Session) : s.Stands outermost origin opened →
    (∃ happened, (action s).2.log = happened ++ origin ∧ outermost.ToldIn happened) ∧
      ∀ value, (action s).1 = .ok value → (action s).2.Stands outermost origin opened

namespace Tells

variable {outermost : Scope} {origin : List Event} {opened : List String}

theorem ofStays {action : Action α} (stays : action.Stays) :
    action.Tells outermost origin opened where
  scope := stays.scope
  told s stands := by
    obtain ⟨scope, here, tells⟩ := stands.scope
    obtain ⟨happened, logged, told, same⟩ := stands.logged
    obtain ⟨more, grown, each⟩ := stays.logs s
    rw [here] at each
    rw [← same] at tells
    have grown : (action s).2.log = (more ++ happened) ++ origin := by
      rw [grown, logged, List.append_assoc]
    refine ⟨⟨_, grown, told.append each tells⟩, fun value _ => ?_⟩
    have stillOpen : openPartials (more ++ happened) = opened :=
      (openPartials_append_of_staysIn each).trans same
    exact ⟨⟨scope, (stays.scope s).trans here, same ▸ tells⟩,
      ⟨_, grown, told.append each tells, stillOpen⟩⟩

theorem bind {action : Action α} {next : α → Action β}
    (tells : action.Tells outermost origin opened)
    (onward : ∀ value, (next value).Tells outermost origin opened) :
    (action >>= next).Tells outermost origin opened where
  scope := tells.scope.bind fun value => (onward value).scope
  told s stands := by
    obtain ⟨told, still⟩ := tells.told s stands
    cases ran : action s with
    | mk outcome after =>
      rw [ran] at told still
      cases outcome with
      | ok value =>
        rw [bind_of_ok ran]
        exact (onward value).told after (still value rfl)
      | error fault =>
        rw [bind_of_error ran]
        exact ⟨told, fun _ failed => by cases failed⟩

theorem inStep (opened : List String) :
    InStep fun _ action _ => action.Tells outermost origin opened where
  pure value := ofStays (Stays.cachesInStep.pure value)
  throw fault ordinary := ofStays (Stays.cachesInStep.throw fault ordinary)
  bind := bind
  onShared taken := ofStays (Stays.cachesInStep.onShared taken)
  record event ordinary := ofStays (Stays.cachesInStep.record event ordinary)
  recordCall := ofStays Stays.cachesInStep.recordCall
  ask field := ofStays (Stays.cachesInStep.ask field)

section Around

variable {action : Action α}

theorem inFrame (tells : action.Tells outermost origin opened) (view : Value) :
    (Action.inFrame view action).Tells outermost origin opened where
  scope := tells.scope.inFrame view
  told s stands := by
    obtain ⟨told, still⟩ := tells.told { s with context := s.context.push view } { stands with }
    exact ⟨told, fun value done => { still value done with }⟩

theorem inRender (tells : action.Tells outermost origin opened) (engine : Engine)
    (name : Option String) : (engine.inRender name action).Tells outermost origin opened where
  scope := tells.scope.inRender engine name
  told s stands := by
    obtain ⟨scope, here, -⟩ := stands.scope
    rw [engine.inRender_within name action here]
    exact tells.told s stands

theorem inPartial {name : String} (tells : action.Tells outermost origin (opened ++ [name])) :
    (Action.inPartial name action).Tells outermost origin opened where
  scope := tells.scope.inPartial name
  told s stands := by
    obtain ⟨scope, here, tellsScope⟩ := stands.scope
    rw [inPartial_within name action here]
    cases checked : scope.check name with
    | error fault => exact ⟨stands.told, fun _ failed => by cases failed⟩
    | ok _ =>
      obtain ⟨during, still⟩ := tells.told _ (stands.opening (tellsScope.child checked))
      rw [bind_of_ok (show ofExcept (.ok ()) s = (.ok (), s) from rfl)]
      cases ran : action
          { s with scope := some (scope.child name), log := .partialOpened name :: s.log } with
      | mk outcome after =>
        rw [ran] at during still
        have left : inScope (scope.child name) action
            { s with log := .partialOpened name :: s.log } =
              (outcome, { after with scope := some scope }) := by
          rw [inScope, ran, ← here]
        cases outcome with
        | error fault =>
          rw [whileOpen_of_error name left]
          exact ⟨during, fun _ failed => by cases failed⟩
        | ok value =>
          rw [whileOpen_of_ok name left]
          have closed := (still value rfl).closing tellsScope
          exact ⟨closed.told, fun _ _ => closed⟩

end Around

end Tells

end Action

open Mustache.Action (Stays Tells)

theorem Engine.parse_stays (engine : Engine) (source : String) (pair : Delimiters)
    (name : Option String) : (engine.parse source pair name).Stays :=
  engine.parse_inStep Stays.cachesInStep source pair name

theorem Job.tellsInStep (outermost : Scope) (origin : List Event) :
    TreesInStep (fun opened _ action _ => Tells outermost origin opened action)
      (fun _ _ action _ => action.Stays) (fun opened name => opened ++ [name]) id
      (fun _ _ => True) where
  steps opened := Tells.inStep opened
  catches _ := Stays.cachesInStep.toCatchInStep
  find _ _ := .quiet (fun _ => rfl) fun _ => rfl
  weaken := .ofStays
  escaper _ := rfl
  partials _ := rfl
  source _ := rfl
  withSource _ _ := rfl
  part _ _ := trivial
  inFrame view tells := tells.inFrame view
  inRender job tells := tells.inRender job.engine none
  inPartial _ := .inPartial
  parse {_ _ job _ _ _} source _ onward answered := by
    refine (Tells.ofStays (job.engine.parse_stays source job.pair none)).bind fun tree => ?_
    cases tree with
    | parsed nodes => exact onward nodes trivial
    | foreign answer => exact answered answer
  lambda _ _ _ := .ofStays (.record fun _ => trivial)
  sourceless _ _ _ := .ofStays (.quiet (fun _ => rfl) fun _ => rfl)

namespace Engine

/-- The scope of the outermost render: the one that a render is in already, or its own. -/
def outermost (engine : Engine) (name : Option String) (s : Session) : Scope :=
  s.scope.getD { templateName := name, maxPartialDepth := engine.maxPartialDepth }

def begun (engine : Engine) (template tags : Value) (s : Session) : Session :=
  match template, engine.pairFor tags with
  | .str source, .ok pair => (engine.parse source pair none s).2
  | _, _ => s

section Renders

variable (engine : Engine) (depth : Nat) {s : Session}

theorem log_inRender {α : Type} (name : Option String) (action : Action α) (s : Session) :
    (engine.inRender name action s).2.log =
      (action { s with scope := some (engine.outermost name s) }).2.log := by
  unfold outermost
  cases here : s.scope with
  | none =>
    rw [engine.inRender_outside name action here]
    rfl
  | some scope =>
    rw [engine.inRender_within name action here, Option.getD_some, ← here]

theorem tells_start (outermost : Scope) (origin : List Event) (job : Job) (tree : Tree) :
    Tells outermost origin [] (job.start depth tree) :=
  let walk := Job.tellsInStep outermost origin
  walk.renderTree (walk.render_same depth) [] fun _ _ => trivial

theorem keepsScope_renderText (job : Job) (text : Value) :
    (job.renderText (Job.render depth) text).KeepsScope :=
  let walk := Job.tellsInStep {} []
  have told := @TreesInStep.renderText _ _ _ _ _ _ walk [] job _ _ (walk.render_same depth) []
    trivial text
  told.scope

section Trees

variable (tree : Tree) (view partials : Value) (source : Option String) (pair : Delimiters)
  (name : Option String)

theorem keepsScope_renderTree :
    (engine.renderTree depth tree view partials source pair name).KeepsScope := by
  have start := tells_start depth {} [] ⟨engine, partials, source, pair⟩ tree
  exact (start.scope.inRender engine name).inContext (.ofView view)

theorem renderTree_tells (consistent : ∀ scope, s.scope = some scope → scope.Consistent) :
    s.CallsTell (engine.outermost name s)
      (engine.renderTree depth tree view partials source pair name s).2 := by
  have consistent : (engine.outermost name s).Consistent := by
    unfold outermost
    cases here : s.scope with
    | none => exact Scope.consistent_of_none name engine.maxPartialDepth
    | some scope => exact consistent scope here
  let inside : Session :=
    { s with scope := some (engine.outermost name s), context := .ofView view }
  have stands : inside.Stands (engine.outermost name s) s.log [] :=
    ⟨⟨_, rfl, consistent.tells⟩, ⟨[], rfl, List.forall_mem_nil _, rfl⟩⟩
  have start := tells_start depth (engine.outermost name s) s.log ⟨engine, partials, source, pair⟩
    tree
  have told := (start.told inside stands).1
  have logged := engine.log_inRender name (Job.start depth ⟨engine, partials, source, pair⟩ tree)
    { s with context := .ofView view }
  change ∃ happened, (engine.inRender name _ { s with context := .ofView view }).2.log = _ ∧ _
  rw [logged]
  exact told

end Trees

theorem begun_of_pair (source : String) {tags : Value} {pair : Delimiters}
    (paired : engine.pairFor tags = .ok pair) :
    engine.begun (.str source) tags s = (engine.parse source pair none s).2 := by
  unfold begun
  rw [paired]

section Templates

variable (template view partials tags : Value)

theorem keepsScope_render : (engine.render depth template view partials tags).KeepsScope := by
  unfold render
  split
  next source =>
    refine (Action.keepsScope_ofExcept _).bind fun pair => ?_
    refine (engine.parse_stays source pair none).scope.bind fun tree => ?_
    exact engine.keepsScope_renderTree depth tree view partials (some source) pair none
  next => exact fun _ => rfl

theorem render_tells (consistent : ∀ scope, s.scope = some scope → scope.Consistent) :
    (engine.begun template tags s).CallsTell (engine.outermost none s)
      (engine.render depth template view partials tags s).2 := by
  cases template with
  | str source =>
    unfold render
    cases paired : engine.pairFor tags with
    | error fault =>
      unfold begun
      rw [paired]
      exact .refl _ s
    | ok pair =>
      rw [engine.begun_of_pair source paired]
      dsimp only
      rw [Action.bind_of_ok (show Action.ofExcept (.ok pair) s = (.ok pair, s) from rfl)]
      have same := (engine.parse_stays source pair none).scope s
      cases ran : engine.parse source pair none s with
      | mk outcome after =>
        rw [ran] at same
        cases outcome with
        | error fault =>
          rw [Action.bind_of_error ran]
          exact .refl _ after
        | ok tree =>
          rw [Action.bind_of_ok ran]
          have tells := engine.renderTree_tells depth tree view partials (some source) pair none
            (s := after) (by rwa [same])
          rwa [outermost, same] at tells
  | _ => exact .refl _ s

end Templates

theorem render_keeps_scope (view partials : Value)
    (consistent : ∀ scope, s.scope = some scope → scope.Consistent) :
    (∀ template tags,
        (engine.render depth template view partials tags).KeepsScope ∧
          (engine.begun template tags s).CallsTell (engine.outermost none s)
            (engine.render depth template view partials tags s).2) ∧
      (∀ template names,
        (engine.renderTemplate depth template view partials names).KeepsScope ∧
          s.CallsTell (engine.outermost template.name s)
            (engine.renderTemplate depth template view partials names s).2) ∧
      ∀ (job : Job) (text : Value), (job.renderText (Job.render depth) text).KeepsScope := by
  refine ⟨fun template tags => ?_, fun template names => ?_, keepsScope_renderText depth⟩
  · exact ⟨engine.keepsScope_render depth template view partials tags,
      engine.render_tells depth template view partials tags consistent⟩
  · exact ⟨engine.keepsScope_renderTree depth _ _ _ _ _ _,
      engine.renderTree_tells depth _ _ _ _ _ _ consistent⟩

theorem render_keeps_scope_of_fault_in_partials :
    let engine : Engine := { cache := .nothing, maxPartialDepth := some 0 }
    let f : Value := .callable (.written (.mk 0 [] true (.scope .partialDepth)) 0 none [])
    let stop : Value := .callable (.written (.mk 1 [] true (.raise "stop")) 0 none [])
    let view : Value := .map [(.str "f", f), (.str "stop", stop)]
    let partials : Value := .map [(.str "p", .str "{{f}}{{>q}}"), (.str "q", .str "{{stop}}")]
    let base : Scope := ⟨some "page", 1, some 5, ["base"]⟩
    let s : Session := { scope := some base }
    let after := (engine.render 5 (.str "{{f}}{{>p}}") view partials .null s).2
    (∀ scope, s.scope = some scope → scope.Consistent) ∧
      callsIn after.log = [
        (some ⟨some "page", 3, some 5, ["base", "p", "q"]⟩, ["p", "q"]),
        (some ⟨some "page", 2, some 5, ["base", "p"]⟩, ["p"]),
        (some base, [])] ∧
      (engine.begun (.str "{{f}}{{>p}}") .null s).CallsTell base after ∧
      after.scope = some base := by
  intro engine f stop view partials base s after
  have consistent : ∀ scope, s.scope = some scope → scope.Consistent := by
    rintro _ ⟨⟩
    exact ⟨rfl, by rintro _ ⟨⟩ -; decide⟩
  obtain ⟨renders, -⟩ := engine.render_keeps_scope 5 view partials consistent
  obtain ⟨keeps, tells⟩ := renders (.str "{{f}}{{>p}}") .null
  exact ⟨consistent, by decide +kernel, tells, keeps s⟩

end Renders

end Engine

end Mustache
