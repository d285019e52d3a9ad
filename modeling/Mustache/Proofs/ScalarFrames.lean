import Mustache.Proofs.ChainsAlike

set_option autoImplicit false

namespace Mustache

/-- A tree in which no name of a variable or section has a dot. -/
def Undotted (nodes : List Node) : Prop :=
  ∀ name ∈ treeNames nodes, '.' ∉ name.toList

instance (nodes : List Node) : Decidable (Undotted nodes) :=
  inferInstanceAs (Decidable (∀ name ∈ treeNames nodes, '.' ∉ name.toList))

/-- Two actions that follow one another as long as no tree is parsed in which a name has a dot. -/
abbrev Action.Follow {α : Type} (related : Session → Session → Prop) (first second : Action α) :
    Prop :=
  FollowWhile Undotted related first second

def withoutScalars (views : List Value) : List Value :=
  views.filter fun view => !view.isScalar

structure ScalarsApart (views views' : List Value) : Prop where
  data : ∀ view ∈ views, view.isData = true
  same : withoutScalars views = withoutScalars views'

section Names

variable {name : String} {view value : Value} {views views' : List Value}

theorem isPath_of_undotted (undotted : '.' ∉ name.toList) : isPath name = false := by
  have none : name.toList.contains '.' = false := by simpa using undotted
  rw [isPath, none, Bool.false_and]

theorem ne_dot_of_undotted (undotted : '.' ∉ name.toList) : name ≠ "." := by
  rintro rfl
  exact undotted (by decide)

theorem meaning_of_undotted (undotted : '.' ∉ name.toList) (views : List Value) :
    meaning name views = resolve name views :=
  if_neg (ne_dot_of_undotted undotted)

theorem Value.answer?_of_isScalar (whole : isPath name = false) (scalar : view.isScalar = true) :
    view.answer? name = .ok none := by
  rw [answer?, if_neg (by simp [whole])]
  cases view <;> first | contradiction | simp [hasKey, publicAttribute?, attribute?, pure,
    Except.pure, bind, Except.bind]

theorem resolve_withoutScalars (whole : isPath name = false) (views : List Value) :
    resolve name (withoutScalars views) = resolve name views := by
  induction views with
  | nil => rfl
  | cons view outer ih =>
    unfold withoutScalars at ih ⊢
    by_cases scalar : view.isScalar = true
    · rw [List.filter_cons_of_neg (by simp [scalar]), ih, resolve,
        Value.answer?_of_isScalar whole scalar]
      rfl
    · rw [List.filter_cons_of_pos (by simp [scalar]), resolve, resolve, ih]

namespace ScalarsApart

variable (apart : ScalarsApart views views')

include apart

theorem meaning (undotted : '.' ∉ name.toList) :
    Mustache.meaning name views = Mustache.meaning name views' := by
  have whole := isPath_of_undotted undotted
  rw [meaning_of_undotted undotted, meaning_of_undotted undotted, ← resolve_withoutScalars whole,
    ← resolve_withoutScalars whole views', apart.same]

theorem push (data : value.isData = true) : ScalarsApart (value :: views) (value :: views') := by
  refine ⟨List.forall_mem_cons.2 ⟨data, apart.data⟩, ?_⟩
  have same := apart.same
  unfold withoutScalars at same ⊢
  rw [List.filter_cons, List.filter_cons, same]

theorem pushScalar (data : value.isData = true) (scalar : value.isScalar = true) :
    ScalarsApart (value :: views) views' := by
  refine ⟨List.forall_mem_cons.2 ⟨data, apart.data⟩, ?_⟩
  rw [← apart.same, withoutScalars, List.filter_cons_of_neg (by simp [scalar])]
  rfl

end ScalarsApart

end Names

open Mustache.Action (Follow)

theorem chainsAlike_of_scalars :
    ChainsAlike Undotted fun _ views views' nodes =>
      ScalarsApart views views' ∧ Undotted nodes where
  data here := here.1.data
  means here member named := here.1.meaning (here.2 _ (mem_treeNames_of_name? member named))
  framed here member data :=
    ⟨here.1.push data, fun name named => here.2 name (mem_treeNames_of_block member named)⟩
  unframed here member _ _ :=
    ⟨here.1, fun name named => here.2 name (mem_treeNames_of_block member named)⟩
  tagged here _ _ _ _ undotted := ⟨here.1, undotted⟩

namespace Job

/-- A way to render nodes that does the same in chains that are the same but for their scalars. -/
structure InnerFollows (inner : Inner) : Prop where
  grows (job : Job) (nodes : List Node) : (inner job nodes).Grows
  follows (job : Job) {views views' : List Value} {nodes : List Node} :
    ScalarsApart views views' → Undotted nodes →
      Follow (Session.Mirrors job.engine job.pair views views') (inner job nodes) (inner job nodes)

section Sections

variable {job : Job} {inner : Inner} {views views' : List Value} {children : List Node}
  (apart : ScalarsApart views views') (inside : InnerFollows inner)

include apart inside

theorem renderSection_follow_scalar {opener opener' : Token} {value : Value}
    (closeStart closeStart' : Nat) (undotted : Undotted children)
    (means : meaning opener.value views = .ok value) (scalar : value.isScalar = true)
    (truthy : value.isFalsy = false) (means' : meaning opener'.value views' = .ok (.bool true)) :
    Follow (Session.Mirrors job.engine job.pair views views')
      (job.renderSection inner opener children closeStart)
      (job.renderSection inner opener' children closeStart') := by
  have grows := job.renderSection_grows inside.grows opener children closeStart
  have data : value.isData = true := by cases value <;> first | rfl | contradiction
  refine follow_lookups grows means data means' rfl ?_
  rw [if_neg (by simp [truthy])]
  cases value with
  | bool b => exact inside.follows job apart undotted
  | int _ | float _ | str _ =>
    exact follow_inFrame_left (inside.follows job (apart.pushScalar data scalar) undotted)
  | _ => contradiction

end Sections

theorem render_follows (depth : Nat) : InnerFollows (Job.render depth) :=
  have renders := render_followsIn chainsAlike_of_scalars depth
  ⟨renders.grows, fun _ _ _ _ apart undotted => renders.follows ⟨apart, undotted⟩⟩

theorem render_follow_scalar (depth : Nat) (job : Job) {views views' : List Value}
    (apart : ScalarsApart views views') {opener opener' : Token} {children : List Node}
    {value : Value} (closeStart closeStart' : Nat) (opens : opener.kind = .sectionTag)
    (opens' : opener'.kind = .sectionTag) (undotted : Undotted children)
    (means : meaning opener.value views = .ok value) (scalar : value.isScalar = true)
    (truthy : value.isFalsy = false) (means' : meaning opener'.value views' = .ok (.bool true)) :
    Follow (Session.Mirrors job.engine job.pair views views')
      (Job.render depth job [.block opener children closeStart])
      (Job.render depth job [.block opener' children closeStart']) := by
  cases depth with
  | zero => exact .throw .exhausted
  | succ depth =>
    have node : Follow (Session.Mirrors job.engine job.pair views views')
        (job.renderSection (Job.render depth) opener children closeStart)
        (job.renderSection (Job.render depth) opener' children closeStart') :=
      renderSection_follow_scalar apart (render_follows depth) closeStart closeStart' undotted
        means scalar truthy means'
    have isSection {opener : Token} (closeStart : Nat) (opens : opener.kind = .sectionTag) :
        job.renderNode (Job.render depth) (.block opener children closeStart) =
          job.renderSection (Job.render depth) opener children closeStart := by
      rw [renderNode, if_neg (by simp [opens])]
    rw [← isSection closeStart opens, ← isSection closeStart' opens'] at node
    exact node.bind fun first => .bind (.pure "") fun others => .pure _

end Job

theorem scalar_frames_transparent {engine : Engine} {pair : Delimiters} {s : Session}
    (finds : engine.FindsOwn pair s.caches) {view view' : Value}
    (apart : ScalarsApart (Context.ofView view).views (Context.ofView view').views) (depth : Nat)
    (partials : Value) (source name : Option String) :
    let render (nodes : List Node) (view : Value) : Action String :=
      engine.renderTree depth (.parsed nodes) view partials source pair name
    (∀ nodes, Undotted nodes → (∀ tree ∈ (render nodes view).parsedTrees s, Undotted tree) →
      (render nodes view s).1 = (render nodes view' s).1) ∧
    ∀ (opener opener' : Token) (children : List Node) (closeStart closeStart' : Nat)
        (value : Value),
      opener.kind = .sectionTag → opener'.kind = .sectionTag → Undotted children →
      meaning opener.value (Context.ofView view).views = .ok value →
      value.isScalar = true → value.isFalsy = false →
      meaning opener'.value (Context.ofView view').views = .ok (.bool true) →
      (∀ tree ∈ (render [.block opener children closeStart] view).parsedTrees s, Undotted tree) →
        (render [.block opener children closeStart] view s).1 =
          (render [.block opener' children closeStart'] view' s).1 := by
  intro render
  constructor
  · intro nodes undotted parsed
    exact Engine.renderTree_of_follow finds
      ((Job.render_follows depth).follows ⟨engine, partials, source, pair⟩ apart undotted) parsed
  · intro opener opener' children closeStart closeStart' value opens opens' undotted means scalar
      truthy means' parsed
    exact Engine.renderTree_of_follow finds
      (Job.render_follow_scalar depth ⟨engine, partials, source, pair⟩ apart closeStart closeStart'
        opens opens' undotted means scalar truthy means') parsed

theorem scalar_frames_transparent_of_number_on_top :
    let engine : Engine := { cache := .keepFirst 0 }
    let s : Session := { caches := [{}] }
    let outer : Value := .map [(.str "a", .str "s"), (.str "b", .list [.int 1, .map []]),
      (.str "t", .bool true)]
    let view : Value := .chain [.int 3, outer]
    let opener (name : String) : Token := ⟨.sectionTag, name, 0, 6, {}⟩
    let nodes : List Node := [.leaf ⟨.partialTag, "p", 6, 12, {}⟩]
    let render (nodes : List Node) (view : Value) : Action String :=
      engine.renderTree 5 (.parsed nodes) view (.map [(.str "p", .str "{{#b}}{{#a}}x{{/a}}{{/b}}")])
        none .standard
    engine.FindsOwn .standard s.caches ∧
      ScalarsApart (Context.ofView view).views (Context.ofView outer).views ∧
      (∀ tree ∈ (render nodes view).parsedTrees s, Undotted tree) ∧
      (render nodes view s).1 = (render nodes outer s).1 ∧
      (render nodes outer s).1.toOption = some "xx" ∧
      (render [.block (opener "a") nodes 12] view s).1 =
        (render [.block (opener "t") nodes 12] outer s).1 := by
  intro engine s outer view opener nodes render
  have finds : engine.FindsOwn .standard s.caches := .ofEmpty .standard rfl (by simp [s])
  have apart : ScalarsApart (Context.ofView view).views (Context.ofView outer).views :=
    ⟨by decide, rfl⟩
  have parsed : ∀ tree ∈ (render nodes view).parsedTrees s, Undotted tree := by decide +kernel
  have sectionParsed :
      ∀ tree ∈ (render [.block (opener "a") nodes 12] view).parsedTrees s, Undotted tree := by
    decide +kernel
  have text : meaning "a" (Context.ofView view).views = .ok (.str "s") :=
    (meaning_of_undotted (by decide) _).trans rfl
  have yes : meaning "t" (Context.ofView outer).views = .ok (.bool true) :=
    (meaning_of_undotted (by decide) _).trans rfl
  obtain ⟨same, sections⟩ := scalar_frames_transparent finds apart 5
    (.map [(.str "p", .str "{{#b}}{{#a}}x{{/a}}{{/b}}")]) none none
  exact ⟨finds, apart, parsed, same nodes (by decide) parsed, by decide +kernel,
    sections (opener "a") (opener "t") nodes 12 12 (.str "s") rfl rfl (by decide) text rfl rfl yes
      sectionParsed⟩

end Mustache
