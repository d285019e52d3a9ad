import Mustache.Proofs.InStep
import Mustache.Proofs.Nesting

set_option autoImplicit false

namespace Mustache

/-- What relates the renders of two jobs. Where a render stands is an index; `C` is the part of the
relation that holds of functions and loaders, whose faults may be caught; `Sound` is what a job
knows of its nodes. -/
structure TreesInStep {Place : Type} (R C : Place → ActionRelation)
    (within : Place → String → Place) (other : Job → Job) (Sound : Job → List Node → Prop) :
    Prop where
  steps (place : Place) : InStep (R place)
  catches (place : Place) : CatchInStep (C place)
  find (place : Place) (name : String) :
    C place (Action.onShared (Session.Shared.find name))
      (Action.onShared (Session.Shared.find name))
  weaken {place : Place} {α : Type} {first second : Action α} :
    C place first second → R place first second
  escaper (job : Job) : (other job).engine.escaper = job.engine.escaper
  partials (job : Job) :
    (other job).engine.partialsFor (other job).partials = job.engine.partialsFor job.partials
  source (job : Job) : (other job).source = job.source
  withSource (job : Job) (source : Option String) :
    other { job with source } = { other job with source }
  part {job : Job} {nodes some : List Node} : Sound job nodes →
    (∀ node, Node.Within node some → Node.Within node nodes) → Sound job some
  inFrame {place : Place} {α : Type} {first second : Action α} (view : Value) :
    R place first second → R place (Action.inFrame view first) (Action.inFrame view second)
  inRender {place : Place} {α : Type} {first second : Action α} (job : Job) :
    R place first second →
      R place (job.engine.inRender none first) ((other job).engine.inRender none second)
  inPartial {place : Place} {α : Type} {first second : Action α} (name : String) :
    R (within place name) first second →
      R place (Action.inPartial name first) (Action.inPartial name second)
  parse {place : Place} {α : Type} {job : Job} {nodes : List Node} {next next' : Tree → Action α}
    (source : String) : Sound job nodes →
    (∀ nodes, Sound { job with source := some source } nodes →
      R place (next (.parsed nodes)) (next' (.parsed nodes))) →
    (∀ answer, R place (next (.foreign answer)) (next' (.foreign answer))) →
    R place (job.engine.parse source job.pair >>= next)
      ((other job).engine.parse source (other job).pair >>= next')
  lambda {place : Place} {job : Job} {nodes children : List Node} {opener : Token}
    {closeStart : Nat} {source : String} : Sound job nodes →
    Node.Within (.block opener children closeStart) nodes → job.source = some source →
    R place
      (Action.record (.sectionLambda opener children closeStart source
        (textBetween source opener.stop closeStart)))
      (Action.record (.sectionLambda opener children closeStart source
        (textBetween source opener.stop closeStart)))
  sourceless {place : Place} {job : Job} {nodes children : List Node} {opener : Token}
    {closeStart : Nat} : Sound job nodes →
    Node.Within (.block opener children closeStart) nodes → job.source = none →
    R place (throw .missingSource : Action String) (throw .missingSource)

namespace TreesInStep

variable {Place : Type} {R C : Place → ActionRelation} {within : Place → String → Place}
  {other : Job → Job} {Sound : Job → List Node → Prop}

def Inner (R : Place → ActionRelation) (other : Job → Job) (Sound : Job → List Node → Prop)
    (inner inner' : Job.Inner) : Prop :=
  ∀ (place : Place) (job : Job) (nodes : List Node), Sound job nodes →
    R place (inner job nodes) (inner' (other job) nodes)

section Nodes

variable (walk : TreesInStep R C within other Sound) {place : Place} {job : Job}

include walk

theorem calls (place : Place) : CallsInStep (R place) Closure.call :=
  fun f args => walk.weaken (Closure.call_inStep (walk.catches place) f args)

theorem lookup (name : String) : R place (Mustache.lookup name) (Mustache.lookup name) :=
  walk.weaken (lookup_inStep (walk.catches place) (walk.find place name))

theorem renderForeign (answer : Value) :
    R place (Job.renderForeign answer) (Job.renderForeign answer) := by
  unfold Job.renderForeign
  split
  · exact (walk.steps place).throw _ trivial
  · refine (walk.steps place).bind ((walk.steps place).ofHost _) fun _ => ?_
    exact (walk.steps place).pure _

theorem escapedValue (name : String) :
    R place (job.escapedValue name) ((other job).escapedValue name) := by
  unfold Job.escapedValue
  refine (walk.steps place).bind (walk.lookup name) fun value => ?_
  rw [walk.escaper]
  split
  · exact (walk.steps place).pure _
  · exact (walk.steps place).bind ((walk.steps place).ofHost _) fun _ => (walk.steps place).pure _

theorem plainValue (name : String) : R place (Job.plainValue name) (Job.plainValue name) := by
  unfold Job.plainValue
  refine (walk.steps place).bind (walk.lookup name) fun value => ?_
  split
  · exact (walk.steps place).pure _
  · exact (walk.steps place).ofHost _

theorem eachItem {first second : Action String} (inStep : R place first second)
    (items : List Value) : R place (Job.eachItem first items) (Job.eachItem second items) := by
  induction items with
  | nil => exact (walk.steps place).pure _
  | cons item rest ih =>
    refine (walk.steps place).bind (walk.inFrame item inStep) fun text => ?_
    exact (walk.steps place).bind ih fun others => (walk.steps place).pure _

section Inside

variable {inner inner' : Job.Inner} (inside : Inner R other Sound inner inner')

include inside

theorem renderTree (place : Place) {tree : Tree}
    (sound : ∀ nodes, tree = .parsed nodes → Sound job nodes) :
    R place (job.renderTree inner tree) ((other job).renderTree inner' tree) := by
  cases tree with
  | parsed nodes => exact inside place job nodes (sound nodes rfl)
  | foreign answer => exact walk.renderForeign answer

variable {nodes : List Node} (sound : Sound job nodes)

include sound

theorem renderParsed {α : Type} {nearer : Place} (source : String)
    {around around' : Action String → Action α}
    (onward : ∀ first second, R nearer first second → R place (around first) (around' second)) :
    R place
      (job.engine.parse source job.pair >>= fun tree =>
        around (Job.renderTree { job with source := some source } inner tree))
      ((other job).engine.parse source (other job).pair >>= fun tree =>
        around' (Job.renderTree { other job with source := some source } inner' tree)) := by
  refine walk.parse source sound (fun nodes sound => ?_) fun answer => ?_ <;>
    rw [← walk.withSource] <;> apply onward <;> apply walk.renderTree inside nearer
  · rintro _ ⟨⟩
    exact sound
  · rintro _ ⟨⟩

theorem renderText (value : Value) :
    R place (job.renderText inner value) ((other job).renderText inner' value) := by
  unfold Job.renderText
  split
  next text =>
    let around (job : Job) (rendering : Action String) : Action Value :=
      job.engine.inRender none rendering >>= fun output => pure (.str output)
    have onward (first second : Action String) (inStep : R place first second) :
        R place (around job first) (around (other job) second) :=
      (walk.steps place).bind (walk.inRender job inStep) fun output => (walk.steps place).pure _
    exact walk.renderParsed inside sound text onward
  next => exact (walk.steps place).throw _ trivial

theorem renderPartial (token : Token) :
    R place (job.renderPartial inner token) ((other job).renderPartial inner' token) := by
  unfold Job.renderPartial
  rw [walk.partials]
  refine (walk.steps place).bind (walk.weaken (resolvePartial_inStep (walk.catches place) _ _))
    fun found => ?_
  cases found with
  | none => exact (walk.steps place).pure _
  | some found =>
    exact walk.renderParsed inside sound _ fun first second => walk.inPartial token.value

theorem callLambda {opener : Token} {children : List Node} {closeStart : Nat}
    (node : Node.Within (.block opener children closeStart) nodes) (f : Closure) :
    R place (job.callLambda inner opener children closeStart f)
      ((other job).callLambda inner' opener children closeStart f) := by
  unfold Job.callLambda
  rw [walk.source]
  cases known : job.source with
  | none => exact walk.sourceless sound node known
  | some source =>
    refine (walk.steps place).bind (walk.lambda sound node known) fun _ => ?_
    have text := @renderText _ _ _ _ _ _ walk place _ _ _ inside _ sound
    refine (walk.steps place).bind
      (Closure.callOnText_inStep (walk.steps place) (walk.calls place) f _ text) fun result => ?_
    exact (walk.steps place).ofHost _

omit sound in
theorem renderInverted {children : List Node} (body : Sound job children) (name : String) :
    R place (job.renderInverted inner name children)
      ((other job).renderInverted inner' name children) := by
  unfold Job.renderInverted
  refine (walk.steps place).bind (walk.lookup name) fun value => ?_
  split
  · exact inside place job children body
  · exact (walk.steps place).pure _

theorem renderSection {opener : Token} {children : List Node} {closeStart : Nat}
    (node : Node.Within (.block opener children closeStart) nodes) (body : Sound job children) :
    R place (job.renderSection inner opener children closeStart)
      ((other job).renderSection inner' opener children closeStart) := by
  have body := inside place job children body
  unfold Job.renderSection
  refine (walk.steps place).bind (walk.lookup opener.value) fun value => ?_
  split
  · exact (walk.steps place).pure _
  · split
    · exact walk.eachItem body _
    · exact walk.eachItem body _
    · exact walk.callLambda inside sound node _
    · exact body
    · exact walk.inFrame _ body

theorem renderLeaf (token : Token) :
    R place (job.renderLeaf inner token) ((other job).renderLeaf inner' token) := by
  unfold Job.renderLeaf
  cases token.kind with
  | escaped => exact walk.escapedValue token.value
  | unescaped => exact walk.plainValue token.value
  | partialTag => exact walk.renderPartial inside sound token
  | _ => exact (walk.steps place).pure _

theorem renderNode {node : Node} (here : Node.Within node nodes) :
    R place (job.renderNode inner node) ((other job).renderNode inner' node) := by
  cases node with
  | leaf token => exact walk.renderLeaf inside sound token
  | block opener children closeStart =>
    have body : Sound job children := walk.part sound fun node => here.ofBody
    unfold Job.renderNode
    dsimp only
    split
    · exact walk.renderInverted inside body opener.value
    · exact walk.renderSection inside sound here body

theorem renderNodes :
    R place (job.renderNodes inner nodes) ((other job).renderNodes inner' nodes) := by
  induction nodes with
  | nil => exact (walk.steps place).pure _
  | cons node rest ih =>
    have rest := ih (walk.part sound fun node later => .tail later)
    refine (walk.steps place).bind (walk.renderNode inside sound (.head node _)) fun first => ?_
    exact (walk.steps place).bind rest fun others => (walk.steps place).pure _

end Inside

end Nodes

theorem render (walk : TreesInStep R C within other Sound) {extra : Nat}
    (exhausted : ∀ place job nodes, Sound job nodes →
      R place (throw .exhausted) (Job.render extra (other job) nodes)) (depth : Nat) :
    Inner R other Sound (Job.render depth) (Job.render (extra + depth)) := by
  -- What nests inside is rendered at a smaller depth, for whatever job it has.
  induction depth with
  | zero => exact exhausted
  | succ depth ih => exact fun place job nodes sound => walk.renderNodes ih sound

theorem render_same (walk : TreesInStep R C within other Sound) (depth : Nat) :
    Inner R other Sound (Job.render depth) (Job.render depth) := by
  have exhausted (place : Place) (job : Job) (nodes : List Node) (_ : Sound job nodes) :
      R place (throw .exhausted) (Job.render 0 (other job) nodes) :=
    (walk.steps place).throw .exhausted trivial
  have render := walk.render exhausted depth
  rwa [Nat.zero_add] at render

end TreesInStep

end Mustache
