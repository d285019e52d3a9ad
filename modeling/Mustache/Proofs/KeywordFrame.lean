import Mustache.Proofs.ChainsAlike
import Mustache.Proofs.DataRendering
import Mustache.Proofs.MentionedNames
import Mustache.Proofs.NearestAnswer

set_option autoImplicit false

namespace Mustache

/-- Some entries give nothing that is looked up under a name. -/
def Unbound (keywords : List (Value × Value)) (name : String) : Prop :=
  Value.valueAt? (.str (firstSegment name)) keywords = none

def keywordEntries (names : List (String × Value)) : List (Value × Value) :=
  (names.map fun entry => (Value.str entry.1, entry.2)).foldl
    (fun done entry => Value.putEntry entry.1 entry.2 done) []

section Frame

variable {name : String} {names : List (String × Value)} {keywords : List (Value × Value)}

theorem unbound_keywordEntries (absent : firstSegment name ∉ names.map Prod.fst) :
    Unbound (keywordEntries names) name := by
  have kept (done : List (Value × Value)) :
      Value.valueAt? (.str (firstSegment name))
        ((names.map fun entry => (Value.str entry.1, entry.2)).foldl
          (fun done entry => Value.putEntry entry.1 entry.2 done) done) =
        Value.valueAt? (.str (firstSegment name)) done := by
    induction names generalizing done with
    | nil => rfl
    | cons entry rest ih =>
      rw [List.map_cons, List.mem_cons, not_or] at absent
      rw [List.map_cons, List.foldl_cons, ih absent.2,
        Value.valueAt?_putEntry_other _ absent.1]
  exact kept []

theorem Value.extend_of_frame {view : Value} (given : names ≠ []) (present : view ≠ .null)
    (noMap : ∀ entries, view ≠ .map entries) :
    view.extend names = .chain (.map (keywordEntries names) :: (Context.ofView view).views) := by
  have some : names.isEmpty = false := by simpa using given
  unfold extend
  rw [some]
  cases view with
  | null => exact absurd rfl present
  | map entries => exact absurd rfl (noMap entries)
  | _ => rfl

theorem Context.views_ofView_cons (view : Value) (outer : List Value) :
    (Context.ofView (.chain (view :: outer))).views = view :: outer := by
  simp [ofView, views, Context.view, Function.comp_def]

theorem Value.answer?_of_unbound (unbound : Unbound keywords name) :
    (Value.map keywords).answer? name = .ok none := by
  rw [@Value.answer?_congr keywords [] name unbound]
  unfold answer?
  split
  · cases segments name with
    | nil => rfl
    | cons first rest => cases rest <;> simp [descend, hasKey, hasOwnMember, member, valueAt?,
        descend_null, bind, Except.bind, pure, Except.pure]
  · rfl

theorem resolve_of_unbound (unbound : Unbound keywords name) (front outer : List Value) :
    resolve name (front ++ outer) = resolve name (front ++ .map keywords :: outer) := by
  induction front with
  | nil =>
    rw [List.nil_append, List.nil_append, resolve, Value.answer?_of_unbound unbound]
    rfl
  | cons view rest ih => simp only [List.cons_append, resolve, ih]

theorem meaning_of_unbound (unbound : Unbound keywords name) {front : List Value}
    (framed : name = "." → front ≠ []) (outer : List Value) :
    meaning name (front ++ outer) = meaning name (front ++ .map keywords :: outer) := by
  unfold meaning
  by_cases dot : name = "."
  · rw [if_pos dot, if_pos dot]
    cases front with
    | nil => exact absurd rfl (framed dot)
    | cons view rest => rfl
  · rw [if_neg dot, if_neg dot]
    exact resolve_of_unbound unbound front outer

end Frame

/-- A node that can be rendered where the names of the render are the innermost frame: one of the
template, of a body that gets no frame of its own, or of a partial tagged there. No render has to
come to it: nodes behind a fault count, and so does any source that the provider gives in some
session. -/
inductive InKeywordFrame (provider : Value) (pair : Delimiters) (outer : List Value)
    (parsed : List (List Node)) (nodes : List Node) : Node → Prop where
  | template {node : Node} : node ∈ nodes → InKeywordFrame provider pair outer parsed nodes node
  | body {opener : Token} {children : List Node} {closeStart : Nat} {value : Value} {node : Node} :
      InKeywordFrame provider pair outer parsed nodes (.block opener children closeStart) →
      meaning opener.value outer = .ok value →
      (if opener.kind = .invertedTag then value.times = 0 else value = .bool true) →
      node ∈ children → InKeywordFrame provider pair outer parsed nodes node
  | tagged {token : Token} {found : String} {tree : List Node} {node : Node} :
      InKeywordFrame provider pair outer parsed nodes (.leaf token) → token.kind = .partialTag →
      (∃ s, (resolvePartial token.value provider s).1 = .ok (some found)) →
      parseTemplate (Job.partialSource token found) pair = .ok tree → tree ∈ parsed →
      node ∈ tree → InKeywordFrame provider pair outer parsed nodes node

/-- In a template of leaves, whose partials are sections with frames of their own, nothing else is
rendered in the frame of the names. -/
theorem InKeywordFrame.mem_of_leaves {provider : Value} {pair : Delimiters} {outer : List Value}
    {parsed : List (List Node)} {nodes inside : List Node} {node : Node}
    (leaves : ∀ node ∈ nodes, ∃ token, node = .leaf token)
    (taken : ∀ token found tree s, .leaf token ∈ nodes →
      (resolvePartial token.value provider s).1 = .ok (some found) →
      parseTemplate (Job.partialSource token found) pair = .ok tree → tree = inside)
    (framed : ∀ node ∈ inside, ∃ opener children closeStart,
      node = .block opener children closeStart ∧ opener.kind ≠ .invertedTag ∧
        meaning opener.value outer ≠ .ok (.bool true))
    (here : InKeywordFrame provider pair outer parsed nodes node) :
    node ∈ nodes ∨ node ∈ inside := by
  induction here with
  | template member => exact .inl member
  | body _ means enters _ ih =>
    rcases ih with member | member
    · obtain ⟨token, same⟩ := leaves _ member
      cases same
    · obtain ⟨opener, children, closeStart, same, upright, isOther⟩ := framed _ member
      cases same
      rw [if_neg upright] at enters
      rw [means, enters] at isOther
      exact absurd rfl isOther
  | tagged _ _ given makes _ member ih =>
    rcases ih with isLeaf | isSection
    · obtain ⟨s, found⟩ := given
      exact .inr (taken _ _ _ s isLeaf found makes ▸ member)
    · obtain ⟨opener, children, closeStart, same, -⟩ := framed _ isSection
      cases same

/-- The same chain without and with the frame of the names, under which the names of a tree are not
bound. With nothing on top of that frame, the tree is one that is rendered there. -/
structure AroundKeywords (provider : Value) (pair : Delimiters) (keywords : List (Value × Value))
    (outer : List Value) (parsed : List (List Node)) (nodes : List Node) (job : Job)
    (views views' : List Value) (tree : List Node) : Prop where
  provides : job.engine.partialsFor job.partials = provider
  marked : job.pair = pair
  data : ∀ view ∈ views, view.isData = true
  unbound : ∀ name ∈ treeNames tree, Unbound keywords name
  chains : ∃ front, views = front ++ outer ∧ views' = front ++ .map keywords :: outer ∧
    (front = [] → ∀ node ∈ tree, InKeywordFrame provider pair outer parsed nodes node)

theorem aroundKeywords_template {keywords : List (Value × Value)} {outer : List Value}
    {nodes : List Node} (job : Job) (data : ∀ view ∈ outer, view.isData = true)
    (unbound : ∀ name ∈ treeNames nodes, Unbound keywords name) (parsed : List (List Node)) :
    AroundKeywords (job.engine.partialsFor job.partials) job.pair keywords outer parsed nodes job
      outer (.map keywords :: outer) nodes :=
  ⟨rfl, rfl, data, unbound, [], rfl, rfl, fun _ _ member => .template member⟩

theorem chainsAlike_of_unbound {provider : Value} {pair : Delimiters}
    {keywords : List (Value × Value)} {outer : List Value} {parsed : List (List Node)}
    {nodes : List Node} (unbound : ∀ tree ∈ parsed, ∀ name ∈ treeNames tree, Unbound keywords name)
    (clear : ∀ node, InKeywordFrame provider pair outer parsed nodes node →
      node.name? ≠ some ".") :
    ChainsAlike (· ∈ parsed) (AroundKeywords provider pair keywords outer parsed nodes) where
  data here := here.data
  means here member named := by
    obtain ⟨front, rfl, rfl, seen⟩ := here.chains
    -- A single dot means a frame that both chains have, unless nothing is on top of the names.
    refine meaning_of_unbound (here.unbound _ (mem_treeNames_of_name? member named)) ?_ outer
    rintro rfl rfl
    exact clear _ (seen rfl _ member) named
  framed {job views views' tree children opener closeStart value} here member data := by
    obtain ⟨front, rfl, rfl, -⟩ := here.chains
    refine ⟨here.provides, here.marked, List.forall_mem_cons.2 ⟨data, here.data⟩,
      fun name named => here.unbound name (mem_treeNames_of_block member named),
      value :: front, rfl, rfl, fun none => by cases none⟩
  unframed here member means enters := by
    obtain ⟨front, rfl, rfl, seen⟩ := here.chains
    refine ⟨here.provides, here.marked, here.data,
      fun name named => here.unbound name (mem_treeNames_of_block member named),
      front, rfl, rfl, ?_⟩
    rintro rfl node inside
    exact .body (seen rfl _ member) means enters inside
  tagged here member isTag given makes admits := by
    obtain ⟨front, rfl, rfl, seen⟩ := here.chains
    refine ⟨here.provides, here.marked, here.data, unbound _ admits, front, rfl, rfl, ?_⟩
    rintro rfl node inside
    rw [here.provides] at given
    rw [here.marked] at makes
    exact .tagged (seen rfl _ member) isTag given makes admits inside

theorem Engine.renderTemplate_of_unbound {engine : Engine} {template : Template}
    {nodes : List Node} {view partials : Value} {names : List (String × Value)} {s : Session}
    (isTree : template.tree = .parsed nodes)
    (finds : engine.FindsOwn (template.tags.getD engine.pair) s.caches)
    (data : view.IsDataView) (present : view ≠ .null) (noMap : ∀ entries, view ≠ .map entries)
    (depth : Nat)
    (unbound : ∀ tree ∈
      nodes :: (engine.renderTemplate depth template view partials []).parsedTrees s,
      ∀ name ∈ treeNames tree, firstSegment name ∉ names.map Prod.fst)
    (clear : ∀ node, InKeywordFrame (engine.partialsFor partials)
      (template.tags.getD engine.pair) (Context.ofView view).views
      ((engine.renderTemplate depth template view partials []).parsedTrees s) nodes node →
      node.name? ≠ some ".") :
    (engine.renderTemplate depth template view partials names s).1 =
      (engine.renderTemplate depth template view partials [] s).1 := by
  by_cases none : names = []
  · rw [none]
  · have plain : engine.renderTemplate depth template view partials [] =
        engine.renderTree depth (.parsed nodes) view partials (some template.source)
          (template.tags.getD engine.pair) template.name := by
      rw [renderTemplate, isTree]
      rfl
    rw [plain] at unbound clear ⊢
    rw [renderTemplate, isTree, view.extend_of_frame none present noMap]
    rw [List.forall_mem_cons] at unbound
    have absent := fun tree member name named =>
      unbound_keywordEntries (unbound.2 tree member name named)
    have chains := chainsAlike_of_unbound absent clear
    have here := aroundKeywords_template
      ⟨engine, partials, some template.source, template.tags.getD engine.pair⟩ data
      (fun name named => unbound_keywordEntries (unbound.1 name named))
    refine (renderTree_of_follow finds ?_ fun _ member => member).symm
    rw [Context.views_ofView_cons]
    exact (Job.render_followsIn chains depth).follows (here _)

/-- A single dot in a partial, read in the frame of an item. -/
theorem Engine.renderTemplate_of_unbound_in_partial :
    let engine : Engine := { cache := .keepFirst 0 }
    let s : Session := { caches := [{}] }
    let nodes : List Node := [.leaf ⟨.partialTag, "p", 0, 6, {}⟩]
    let template : Template := { source := "{{>p}}", tree := .parsed nodes }
    let view : Value := .list [.str "a"]
    let partials : Value := .map [(.str "p", .str "{{#0}}{{#.}}x{{/.}}{{/0}}")]
    let names := [("x", Value.int 1)]
    engine.FindsOwn .standard s.caches ∧ view.IsDataView ∧
      (engine.renderTemplate 4 template view partials names s).1 =
        (engine.renderTemplate 4 template view partials [] s).1 ∧
      (engine.renderTemplate 4 template view partials [] s).1.toOption = some "x" := by
  intro engine s nodes template view partials names
  have finds : engine.FindsOwn .standard s.caches := .ofEmpty .standard rfl (by simp [s])
  have data : view.IsDataView := Value.isDataView_of_isData rfl
  let block : Node := .block ⟨.sectionTag, "0", 0, 6, {}⟩
    [.block ⟨.sectionTag, ".", 6, 12, {}⟩ [.leaf ⟨.text, "x", 12, 13, {}⟩] 13] 19
  have taken (token : Token) (found : String) (tree : List Node) (s : Session)
      (member : .leaf token ∈ nodes)
      (given : (resolvePartial token.value partials s).1 = .ok (some found))
      (makes : parseTemplate (Job.partialSource token found) .standard = .ok tree) :
      tree = [block] := by
    cases List.mem_singleton.1 member
    cases given
    exact (Except.ok.inj makes).symm
  have clear (node : Node) (here : InKeywordFrame partials .standard [view]
      ((engine.renderTemplate 4 template view partials []).parsedTrees s) nodes node) :
      node.name? ≠ some "." := by
    -- The section of the partial is on a text, which gets a frame: nothing in it is seen.
    have item : meaning "0" [view] = .ok (.str "a") := rfl
    have seen := here.mem_of_leaves (by simp [nodes]) taken (by simp [block, item])
    rcases seen with member | member
    all_goals
      rw [List.mem_singleton.1 member]
      decide
  have unbound : ∀ tree ∈
      nodes :: (engine.renderTemplate 4 template view partials []).parsedTrees s,
      ∀ name ∈ treeNames tree, firstSegment name ∉ names.map Prod.fst := by decide +kernel
  refine ⟨finds, data, ?_, by decide +kernel⟩
  exact Engine.renderTemplate_of_unbound rfl finds data (by simp [view]) (by simp [view]) 4 unbound
    clear

/-- A single dot that is read where the names of the render are the innermost frame gives these
names in place of the view: not the two items of the view, but one mapping. -/
theorem Engine.renderTemplate_of_dot :
    let engine : Engine := { cache := .keepFirst 0 }
    let s : Session := { caches := [{}] }
    let nodes : List Node :=
      [.block ⟨.sectionTag, ".", 0, 6, {}⟩ [.leaf ⟨.text, "i", 6, 7, {}⟩] 7]
    let template : Template := { source := "{{#.}}i{{/.}}", tree := .parsed nodes }
    let view : Value := .list [.str "a", .str "b"]
    let names := [("x", Value.int 1)]
    parseTemplate "{{#.}}i{{/.}}" .standard = .ok nodes ∧ view.IsDataView ∧
      (∀ tree ∈ nodes :: (engine.renderTemplate 2 template view .null []).parsedTrees s,
        ∀ name ∈ treeNames tree, firstSegment name ∉ names.map Prod.fst) ∧
      (engine.renderTemplate 2 template view .null names s).1.toOption = some "i" ∧
      (engine.renderTemplate 2 template view .null [] s).1.toOption = some "ii" := by
  intro engine s nodes template view names
  have parsed : parseTemplate "{{#.}}i{{/.}}" .standard =
      .ok [.block ⟨.sectionTag, ".", 0, 6, {}⟩ [.leaf ⟨.text, "i", 6, 7, {}⟩] 7] := rfl
  exact ⟨parsed, Value.isDataView_of_isData rfl, by decide +kernel, by decide +kernel,
    by decide +kernel⟩

end Mustache
