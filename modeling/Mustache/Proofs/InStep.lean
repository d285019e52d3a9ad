import Mustache.Render

set_option autoImplicit false

namespace Mustache

namespace Action

section Runs

variable {α β : Type} {s after : Session}

theorem bind_of_ok {action : Action α} {next : α → Action β} {value : α}
    (done : action s = (.ok value, after)) : (action >>= next) s = next value after := by
  change ExceptT.bindCont next (action s).1 (action s).2 = _
  rw [done]
  rfl

theorem bind_of_error {action : Action α} {next : α → Action β} {fault : Fault}
    (failed : action s = (.error fault, after)) : (action >>= next) s = (.error fault, after) := by
  change ExceptT.bindCont next (action s).1 (action s).2 = _
  rw [failed]
  rfl

theorem get_bind (next : Session → Action α) (s : Session) : (get >>= next) s = next s s :=
  rfl

theorem bind_eq_ok {action : Action α} {next : α → Action β} {value : β}
    (done : ((action >>= next) s).1 = .ok value) :
    ∃ found after, action s = (.ok found, after) ∧ (next found after).1 = .ok value := by
  cases ran : action s with
  | mk outcome after =>
    change (ExceptT.bindCont next (action s).1 (action s).2).1 = _ at done
    rw [ran] at done
    cases outcome with
    | error fault => contradiction
    | ok found => exact ⟨found, after, rfl, done⟩

theorem eq_ok_of_ofExcept {outcome : Except Fault α} {value : α}
    (done : ofExcept outcome s = (.ok value, after)) : outcome = .ok value := by
  cases outcome with
  | error fault => cases done
  | ok found =>
    cases done
    rfl

theorem bind_pure_apply (action : Action α) (f : α → β) (s : Session) :
    (action >>= fun value => pure (f value)) s = ((action s).1.map f, (action s).2) := by
  change ExceptT.bindCont (fun value => (pure (f value) : Action β)) (action s).1 (action s).2 = _
  cases (action s).1 <;> rfl

end Runs

end Action

section Scopes

variable {α : Type} {s : Session} (engine : Engine) (name : Option String) (action : Action α)

theorem Engine.inRender_outside (outside : s.scope = none) :
    engine.inRender name action s =
      Action.inScope { templateName := name, maxPartialDepth := engine.maxPartialDepth } action
        s := by
  rw [inRender, Action.get_bind, outside]

theorem Engine.inRender_within {scope : Scope} (within : s.scope = some scope) :
    engine.inRender name action s = action s := by
  rw [inRender, Action.get_bind, within]

end Scopes

section Partials

variable {α : Type} {s after : Session} (name : String) (action : Action α)

theorem Action.inPartial_outside (outside : s.scope = none) :
    inPartial name action s = whileOpen name action s := by
  rw [inPartial, get_bind, outside]

theorem Action.inPartial_within {scope : Scope} (within : s.scope = some scope) :
    inPartial name action s = (ofExcept (scope.check name) >>= fun _ =>
      whileOpen name (inScope (scope.child name) action)) s := by
  rw [inPartial, get_bind, within]

variable {action}

theorem Action.whileOpen_of_ok {value : α}
    (done : action { s with log := .partialOpened name :: s.log } = (.ok value, after)) :
    whileOpen name action s = (.ok value, { after with log := .partialClosed :: after.log }) :=
  @bind_of_ok _ _ _ _ _ (fun value => record .partialClosed >>= fun _ => pure value) _ done

theorem Action.whileOpen_of_error {fault : Fault}
    (failed : action { s with log := .partialOpened name :: s.log } = (.error fault, after)) :
    whileOpen name action s = (.error fault, after) :=
  @bind_of_error _ _ _ _ _ (fun value => record .partialClosed >>= fun _ => pure value) _ failed

end Partials

structure Session.Shared where
  calls : List ((Nat × Nat) × Nat)
  nextSerial : Nat
  context : Context

def Session.shared (s : Session) : Session.Shared :=
  ⟨s.calls, s.nextSerial, s.context⟩

def Session.withShared (s : Session) (shared : Session.Shared) : Session :=
  { s with calls := shared.calls, nextSerial := shared.nextSerial, context := shared.context }

namespace Session.Shared

def count (identity : Nat × Nat) (shared : Session.Shared) : Nat × Session.Shared :=
  let calls := (identity, (shared.calls.lookup identity).getD 0 + 1) ::
    shared.calls.filter fun entry => entry.1 ≠ identity
  ((calls.lookup identity).getD 0, { shared with calls })

def make (code : Code) (owner : Option Value) (args : List Value) (shared : Session.Shared) :
    Value × Session.Shared :=
  (.callable (.written code shared.nextSerial owner args),
    { shared with nextSerial := shared.nextSerial + 1 })

def find (name : String) (shared : Session.Shared) :
    Except HostFault (Value × Value) × Session.Shared :=
  match shared.context.find name with
  | .ok (value, context) => (.ok (value, context.view), { shared with context })
  | .error fault => (.error fault, shared)

/-- The steps that functions take on it; the context is read by lookups only. -/
inductive Taken : ∀ {α : Type}, (Session.Shared → α × Session.Shared) → Prop
  | count (identity : Nat × Nat) : Taken (count identity)
  | make (code : Code) (owner : Option Value) (args : List Value) : Taken (make code owner args)

end Session.Shared

def Action.onShared {α : Type} (step : Session.Shared → α × Session.Shared) : Action α :=
  fun s => (.ok (step s.shared).1, s.withShared (step s.shared).2)

def Action.recordCall : Action Unit := do
  let session ← get
  Action.record (.called session.scope)

def Fault.Ordinary : Fault → Prop
  | .tooDeep _ _ _ _ | .missingSource => False
  | _ => True

def Event.Ordinary : Event → Prop
  | .noProvider _ | .partialMissing _ _ | .fileMissing _ _ => True
  | _ => False

abbrev ActionRelation := ∀ ⦃α : Type⦄, Action α → Action α → Prop

/-- A relation that holds of two runs as long as they take the same steps. -/
structure InStep (R : ActionRelation) : Prop where
  pure {α : Type} (value : α) : R (pure value) (pure value)
  throw {α : Type} (fault : Fault) : fault.Ordinary → R (throw fault : Action α) (throw fault)
  bind {α β : Type} {first second : Action α} {next next' : α → Action β} :
    R first second → (∀ value, R (next value) (next' value)) → R (first >>= next) (second >>= next')
  onShared {α : Type} {step : Session.Shared → α × Session.Shared} :
    Session.Shared.Taken step → R (Action.onShared step) (Action.onShared step)
  record (event : Event) : event.Ordinary → R (Action.record event) (Action.record event)
  recordCall : R Action.recordCall Action.recordCall
  ask (field : ScopeField) : R field.ask field.ask

/-- A relation that holds also when faults are caught; those that are not handled may be thrown
again. -/
structure CatchInStep (R : ActionRelation) : Prop extends InStep R where
  attempt {α β : Type} {first second : Action α} {next next' : Except Fault α → Action β} :
    R first second → (∀ value, R (next (.ok value)) (next' (.ok value))) →
    (∀ fault : Fault,
      (∀ {γ : Type}, R (MonadExcept.throw fault : Action γ) (MonadExcept.throw fault)) →
      R (next (.error fault)) (next' (.error fault))) →
    R (Action.attempt first >>= next) (Action.attempt second >>= next')

section Calls

variable {R : ActionRelation}

theorem InStep.ofHost (steps : InStep R) {α : Type} (outcome : Except HostFault α) :
    R (Action.ofHost outcome) (Action.ofHost outcome) := by
  cases outcome with
  | ok value => exact steps.pure value
  | error fault => exact steps.throw (.host fault) trivial

theorem InStep.ofExcept (steps : InStep R) {α : Type} {outcome : Except Fault α}
    (ordinary : ∀ fault, outcome = .error fault → fault.Ordinary) :
    R (Action.ofExcept outcome) (Action.ofExcept outcome) := by
  cases outcome with
  | ok value => exact steps.pure value
  | error fault => exact steps.throw fault (ordinary fault rfl)

inductive RendersInStep (R : ActionRelation) :
    Option (Value → Action Value) → Option (Value → Action Value) → Prop
  | none : RendersInStep R none none
  | some {run run' : Value → Action Value} (inStep : ∀ text, R (run text) (run' text)) :
      RendersInStep R (some run) (some run')

variable {run run' : Option (Value → Action Value)}

mutual

theorem Expr.eval_inStep (steps : InStep R) (renders : RendersInStep R run run')
    (activation : Activation) : (e : Expr) →
    R (e.eval { activation with render? := run }) (e.eval { activation with render? := run' })
  | .const value => steps.pure _
  | .arg index => steps.pure _
  | .outerArg index => steps.pure _
  | .self name => steps.pure _
  | .entry subject key => by
      refine steps.bind (Expr.eval_inStep steps renders activation subject) fun value => ?_
      refine steps.bind (Expr.eval_inStep steps renders activation key) fun name => ?_
      exact steps.ofHost _
  | .concat parts => by
      refine steps.bind (Expr.evalParts_inStep steps renders activation parts) fun text => ?_
      exact steps.pure _
  | .count => steps.pure _
  | .render text => by
      refine steps.bind (Expr.eval_inStep steps renders activation text) fun value => ?_
      cases renders with
      | none => exact steps.throw _ trivial
      | some inStep => exact inStep value
  | .upper text => by
      refine steps.bind (Expr.eval_inStep steps renders activation text) fun value => ?_
      exact steps.bind (steps.ofHost _) fun text => steps.pure _
  | .length subject => by
      refine steps.bind (Expr.eval_inStep steps renders activation subject) fun value => ?_
      split
      · exact steps.pure _
      · exact steps.throw _ trivial
  | .lambda code => steps.onShared (.make code activation.owner activation.args)
  | .scope field => steps.ask field
  | .raise text => steps.throw _ trivial

theorem Expr.evalParts_inStep (steps : InStep R) (renders : RendersInStep R run run')
    (activation : Activation) : (parts : List Expr) →
    R (Expr.evalParts { activation with render? := run } parts)
      (Expr.evalParts { activation with render? := run' } parts)
  | [] => steps.pure _
  | part :: rest => by
      refine steps.bind (Expr.eval_inStep steps renders activation part) fun value => ?_
      refine steps.bind (steps.ofHost _) fun text => ?_
      refine steps.bind (Expr.evalParts_inStep steps renders activation rest) fun more => ?_
      exact steps.pure _

end

theorem Code.call_of_bind? {code : Code} {args bound : List Value}
    (binds : code.bind? args = some bound) (serial : Nat) (owner : Option Value)
    (outer : List Value) (render? : Option (Value → Action Value)) :
    code.call serial owner outer args render? =
      (Action.onShared (Session.Shared.count (code.site, serial)) >>= fun callCount =>
        Action.recordCall >>= fun _ =>
          code.body.eval { serial, owner, outer, args := bound, callCount, render? }) := by
  unfold Code.call
  rw [binds]
  rfl

theorem Code.call_inStep (steps : InStep R) (renders : RendersInStep R run run') (code : Code)
    (serial : Nat) (owner : Option Value) (outer args : List Value) :
    R (code.call serial owner outer args run) (code.call serial owner outer args run') := by
  cases binds : code.bind? args with
  | none =>
    unfold Code.call
    rw [binds]
    exact steps.throw _ trivial
  | some bound =>
    rw [Code.call_of_bind? binds, Code.call_of_bind? binds]
    refine steps.bind (steps.onShared (.count _)) fun callCount => ?_
    refine steps.bind steps.recordCall fun _ => ?_
    exact Expr.eval_inStep steps renders { serial, owner, outer, args := bound, callCount }
      code.body

end Calls

section Loaders

variable {R : ActionRelation} {call : Caller}

def CallsInStep (R : ActionRelation) (call : Caller) : Prop :=
  ∀ f args, R (call f args) (call f args)

theorem callAttribute_inStep (steps : InStep R) (calls : CallsInStep R call) (value : Value)
    (member : String) (args : List Value) :
    R (callAttribute call value member args) (callAttribute call value member args) := by
  unfold callAttribute
  split
  · exact calls _ _
  · exact steps.throw _ trivial
  · exact steps.throw _ trivial

theorem throwNotFound_inStep (steps : InStep R) {α : Type} (name : Value) (missing : Missing) :
    R (throwNotFound name missing : Action α) (throwNotFound name missing) :=
  steps.bind (steps.ofHost _) fun _ => steps.throw _ trivial

theorem FileSearch.load_inStep (steps : InStep R) (search : FileSearch) (name : Value) :
    R (search.load name) (search.load name) := by
  unfold FileSearch.load
  split
  next name =>
    unfold FileSearch.loadText
    split
    · exact steps.throw _ trivial
    · split
      · exact steps.pure _
      · exact steps.throw _ trivial
    · exact steps.bind (steps.record _ trivial) fun _ => steps.throw _ trivial
  next =>
    split
    · exact steps.throw _ trivial
    · split
      · exact throwNotFound_inStep steps name _
      · exact steps.throw _ trivial

theorem loadEntry_inStep (steps : InStep R) (mapping name : Value) :
    R (loadEntry mapping name) (loadEntry mapping name) := by
  unfold loadEntry
  split
  · exact steps.throw _ trivial
  · exact steps.pure _
  · split
    · exact steps.throw _ trivial
    · exact throwNotFound_inStep steps name _

mutual

theorem Loader.load_inStep (steps : CatchInStep R) (calls : CallsInStep R call) (name : Value) :
    (loader : Loader) → R (loader.load call name) (loader.load call name)
  | .names mapping => loadEntry_inStep steps.toInStep mapping name
  | .files search => search.load_inStep steps.toInStep name
  | .function f => by
      refine steps.bind (calls f [name]) fun answer => ?_
      split
      · exact throwNotFound_inStep steps.toInStep name _
      · exact steps.pure _
      · exact steps.pure _
  | .choice members => Loader.loadFirst_inStep steps calls name members.length members

theorem Loader.loadFrom_inStep (steps : CatchInStep R) (calls : CallsInStep R call)
    (name : Value) : (value : Value) →
    R (Loader.loadFrom call name value) (Loader.loadFrom call name value)
  | value => by
      unfold Loader.loadFrom
      split
      next source => exact Loader.load_inStep steps calls name source
      next => exact callAttribute_inStep steps.toInStep calls value "get_source" [name]

theorem Loader.loadFirst_inStep (steps : CatchInStep R) (calls : CallsInStep R call)
    (name : Value) (count : Nat) : (members : List Value) →
    R (Loader.loadFirst call name count members) (Loader.loadFirst call name count members)
  | [] => throwNotFound_inStep steps.toInStep name _
  | member :: rest => by
      apply steps.attempt (Loader.loadFrom_inStep steps calls name member)
      · exact fun found => steps.pure found
      · intro fault again
        -- A loader that does not know the name is passed over.
        cases fault with
        | notFound => exact Loader.loadFirst_inStep steps calls name count rest
        | _ => exact again

end

theorem listedItems_inStep (steps : InStep R) (answer : Value) :
    R (listedItems answer) (listedItems answer) := by
  unfold listedItems
  split
  · exact steps.throw _ trivial
  · split
    · exact steps.pure _
    · exact steps.throw _ trivial

mutual

theorem Loader.list_inStep (steps : InStep R) (calls : CallsInStep R call) : (loader : Loader) →
    R (loader.list call) (loader.list call)
  | .names mapping => steps.ofHost _
  | .files search => steps.bind (steps.ofHost _) fun found => steps.pure _
  | .function f => steps.throw _ trivial
  | .choice members => by
      refine steps.bind (Loader.listEach_inStep steps calls members) fun found => ?_
      split
      · exact steps.pure _
      · exact steps.throw _ trivial

theorem Loader.listFrom_inStep (steps : InStep R) (calls : CallsInStep R call) : (value : Value) →
    R (Loader.listFrom call value) (Loader.listFrom call value)
  | value => by
      unfold Loader.listFrom
      split
      next => exact steps.pure _
      next source _ => exact Loader.list_inStep steps calls source
      next =>
        split
        · refine steps.bind (callAttribute_inStep steps calls _ _ _) fun answer => ?_
          exact listedItems_inStep steps answer
        · exact steps.pure _

theorem Loader.listEach_inStep (steps : InStep R) (calls : CallsInStep R call) :
    (members : List Value) → R (Loader.listEach call members) (Loader.listEach call members)
  | [] => steps.pure _
  | member :: rest => by
      refine steps.bind (Loader.listFrom_inStep steps calls member) fun first => ?_
      exact steps.bind (Loader.listEach_inStep steps calls rest) fun others => steps.pure _

end

theorem lookUpIn_inStep (steps : InStep R) (calls : CallsInStep R call) (views : List Value)
    (name : Value) : R (lookUpIn call views name) (lookUpIn call views name) := by
  unfold lookUpIn
  split
  next name =>
    split
    all_goals
      refine steps.bind ?found fun value => ?answer
      case found => first | exact steps.pure _ | exact steps.ofHost _
      case answer =>
        dsimp only
        split
        · exact calls _ _
        · exact steps.pure _
  next => exact steps.throw _ trivial

namespace Closure

theorem callAttached_inStep (steps : CatchInStep R) (calls : CallsInStep R call) (f : Closure)
    (args : List Value) : R (f.callAttached call args) (f.callAttached call args) := by
  unfold callAttached
  split
  · exact steps.ofHost _
  · exact steps.bind (Loader.list_inStep steps.toInStep calls _) fun names => steps.pure _
  · exact Loader.load_inStep steps calls _ _
  · exact steps.pure _
  · exact lookUpIn_inStep steps.toInStep calls _ _
  · exact steps.throw _ trivial

theorem callWithin_inStep (steps : CatchInStep R) (depth : Nat) :
    CallsInStep R (callWithin depth) := by
  have written (code : Code) (serial : Nat) (owner : Option Value) (outer args : List Value) :=
    Code.call_inStep steps.toInStep .none code serial owner outer args
  -- Written functions run their bodies at any depth; only the others call functions.
  induction depth with
  | zero =>
    intro f args
    cases f with
    | written code serial owner outer => exact written code serial owner outer args
    | _ => exact steps.throw _ trivial
  | succ depth ih =>
    intro f args
    cases f with
    | written code serial owner outer => exact written code serial owner outer args
    | _ => exact callAttached_inStep steps ih _ args

theorem call_inStep (steps : CatchInStep R) : CallsInStep R Closure.call :=
  callWithin_inStep steps callDepth

theorem callOnText_inStep (steps : InStep R) (calls : CallsInStep R Closure.call) (f : Closure)
    (text : String) {render render' : Value → Action Value}
    (inStep : ∀ value, R (render value) (render' value)) :
    R (f.callOnText text render) (f.callOnText text render') := by
  unfold callOnText
  split
  · exact Code.call_inStep steps (.some inStep) _ _ _ _ _
  · exact calls _ _

end Closure

theorem loadSource_inStep (steps : CatchInStep R) (loader : Value) (name : String) :
    R (loadSource loader name) (loadSource loader name) := by
  unfold loadSource
  have calls := Closure.call_inStep steps
  refine steps.bind (callAttribute_inStep steps.toInStep calls _ _ _) fun found => ?_
  unfold sourceOf
  split
  · exact steps.throw _ trivial
  · exact steps.pure _
  · exact steps.throw _ trivial

theorem partialText_inStep (steps : InStep R) (name : String) (source : Value) :
    R (partialText name source) (partialText name source) := by
  unfold partialText
  split
  · exact steps.bind (steps.record _ trivial) fun _ => steps.pure _
  · exact steps.pure _
  · exact steps.throw _ trivial

theorem loadPartial_inStep (steps : CatchInStep R) (loader : Value) (name : String) :
    R (loadPartial loader name) (loadPartial loader name) := by
  unfold loadPartial
  apply steps.attempt (loadSource_inStep steps loader name)
  · exact fun source => partialText_inStep steps.toInStep name source
  · intro fault again
    cases fault with
    | notFound => exact steps.bind (steps.record _ trivial) fun _ => steps.pure _
    | _ => exact again

theorem resolvePartial_inStep (steps : CatchInStep R) (name : String) (partials : Value) :
    R (resolvePartial name partials) (resolvePartial name partials) := by
  have text (source : Value) := partialText_inStep steps.toInStep name source
  unfold resolvePartial
  split
  next => exact steps.bind (steps.record _ trivial) fun _ => steps.pure _
  next => exact text _
  next =>
    split
    · exact loadPartial_inStep steps partials name
    · split
      · exact steps.bind (Closure.call_inStep steps _ _) fun source => text source
      · exact steps.throw _ trivial

end Loaders

section Lookups

variable {R : ActionRelation}

theorem lookup_eq (name : String) :
    lookup name = (Action.onShared (Session.Shared.find name) >>= fun found =>
      Action.ofHost found >>= fun found =>
        match found.1 with
        | .callable f => f.call (if f.takesView then [found.2] else [])
        | value => pure value) := by
  funext s
  rw [lookup, Action.get_bind]
  cases found : s.context.find name with
  | error fault =>
    have stepped : Action.onShared (Session.Shared.find name) s = (.ok (.error fault), s) := by
      simp only [Action.onShared, Session.Shared.find, Session.shared, found]
      rfl
    rw [Action.bind_of_ok stepped]
    rfl
  | ok result =>
    have stepped : Action.onShared (Session.Shared.find name) s =
        (.ok (.ok (result.1, result.2.view)), { s with context := result.2 }) := by
      simp only [Action.onShared, Session.Shared.find, Session.shared, found]
      rfl
    rw [Action.bind_of_ok stepped]
    rfl

theorem lookup_inStep (steps : CatchInStep R) {name : String}
    (finds : R (Action.onShared (Session.Shared.find name))
      (Action.onShared (Session.Shared.find name))) : R (lookup name) (lookup name) := by
  rw [lookup_eq]
  refine steps.bind finds fun found => ?_
  refine steps.bind (steps.ofHost found) fun found => ?_
  split
  · exact Closure.call_inStep steps _ _
  · exact steps.pure _

end Lookups

end Mustache
