import Mustache.Cache
import Mustache.Context
import Mustache.Fault
import Mustache.Text.Digit

set_option autoImplicit false

namespace Mustache

structure Scope where
  templateName : Option String := none
  partialDepth : Nat := 0
  maxPartialDepth : Option Int := none
  partialStack : List String := []
  deriving DecidableEq, Repr

namespace Scope

/-- The fault of a partial that may not be opened. Its message holds the limit. -/
def refusal (limit : Int) (refused : String) (templateName : Option String)
    (openPartials : List String) : Fault :=
  if fitsDigits limit then .tooDeep limit refused templateName openPartials
  else .host .tooManyDigits

theorem refusal_cases (limit : Int) (refused : String) (templateName : Option String)
    (openPartials : List String) :
    refusal limit refused templateName openPartials =
        .tooDeep limit refused templateName openPartials ∨
      fitsDigits limit = false ∧
        refusal limit refused templateName openPartials = .host .tooManyDigits := by
  unfold refusal
  cases fitsDigits limit with
  | true => exact .inl rfl
  | false => exact .inr ⟨rfl, rfl⟩

def check (scope : Scope) (name : String) : Except Fault Unit :=
  match scope.maxPartialDepth with
  | none => .ok ()
  | some limit =>
      if scope.partialDepth < limit then .ok ()
      else .error (refusal limit name scope.templateName scope.partialStack)

theorem refusal_of_check {scope : Scope} {name : String} {fault : Fault}
    (failed : scope.check name = .error fault) :
    ∃ limit, scope.maxPartialDepth = some limit ∧
      fault = refusal limit name scope.templateName scope.partialStack := by
  unfold check at failed
  split at failed
  next => nomatch failed
  next limit limited =>
    split at failed
    · nomatch failed
    · exact ⟨limit, limited, (Except.error.inj failed).symm⟩

def child (scope : Scope) (name : String) : Scope :=
  { scope with
    partialDepth := scope.partialDepth + 1
    partialStack := scope.partialStack ++ [name] }

end Scope

/-- What happened. A parse tells the source and its delimiters, and whether a cache had the tree. A
lambda's event holds the section, and the source that its text was cut from. A partial is closed
when its rendering is done; a fault leaves it open. -/
inductive Event where
  | treeFound (name : Option String) (source : String) (pair : Delimiters)
  | treeMissing (name : Option String) (source : String) (pair : Delimiters)
  | noProvider (name : String)
  | partialMissing (name : String) (reason : Option String)
  | fileMissing (name : String) (paths : List String)
  | sectionLambda (opener : Token) (children : List Node) (closeStart : Nat) (source text : String)
  | called (scope : Option Scope)
  | scopeRead (field : ScopeField)
  | partialOpened (name : String)
  | partialClosed

/-- The log holds the last event first. Serial number zero belongs to the functions of the given
data; functions made while rendering get the following ones. -/
structure Session where
  caches : List TreeCache := []
  calls : List ((Nat × Nat) × Nat) := []
  nextSerial : Nat := 1
  scope : Option Scope := none
  context : Context := .ofView .null
  log : List Event := []

namespace Session

def callCount (session : Session) (identity : Nat × Nat) : Nat :=
  (session.calls.lookup identity).getD 0

def countCall (session : Session) (identity : Nat × Nat) : Session :=
  { session with
    calls := (identity, session.callCount identity + 1) ::
      session.calls.filter fun entry => entry.1 ≠ identity }

def cache (session : Session) (slot : Nat) : TreeCache :=
  session.caches[slot]?.getD {}

def setCache (session : Session) (slot : Nat) (cache : TreeCache) : Session :=
  { session with caches := session.caches.set slot cache }

end Session

abbrev Action := ExceptT Fault (StateM Session)

namespace Action

def record (event : Event) : Action Unit :=
  modify fun session => { session with log := event :: session.log }

def ofExcept {α : Type} : Except Fault α → Action α
  | .ok value => pure value
  | .error fault => throw fault

def ofHost {α : Type} : Except HostFault α → Action α
  | .ok value => pure value
  | .error fault => throw (.host fault)

def attempt {α : Type} (action : Action α) : Action (Except Fault α) :=
  fun session =>
    let (outcome, after) := action session
    (.ok outcome, after)

/-- Runs an action in a scope; afterwards, also after a fault, the scope is what it was. -/
def inScope {α : Type} (scope : Scope) (action : Action α) : Action α :=
  fun session =>
    let (outcome, after) := action { session with scope := some scope }
    (outcome, { after with scope := session.scope })

def whileOpen {α : Type} (name : String) (action : Action α) : Action α := do
  record (.partialOpened name)
  let value ← action
  record .partialClosed
  pure value

def inPartial {α : Type} (name : String) (action : Action α) : Action α := do
  match (← get).scope with
  | none => whileOpen name action
  | some scope => do
      ofExcept (scope.check name)
      whileOpen name (inScope (scope.child name) action)

def inContext {α : Type} (context : Context) (action : Action α) : Action α :=
  fun session =>
    let (outcome, after) := action { session with context }
    (outcome, { after with context := session.context })

def inFrame {α : Type} (view : Value) (action : Action α) : Action α :=
  fun session => inContext (session.context.push view) action session

end Action

end Mustache
