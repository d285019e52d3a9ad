import Mustache.Proofs.DataRendering
import Mustache.Proofs.MemoizedLookups
import Mustache.Proofs.Spelling

set_option autoImplicit false

namespace Mustache

open Mustache.Action (Preserve)

def Unscoped {β : Type} (kept : Session → β) : Prop :=
  ∀ (s : Session) (scope : Option Scope) (context : Context) (log : List Event),
    kept { s with scope, context, log } = kept s

/-- Two sessions with the same scope and context, where lookups find nothing but data, that keep the
same besides. -/
structure Session.SameData {β : Type} (kept : Session → β) (first second : Session) : Prop where
  scope : first.scope = second.scope
  context : first.context = second.context
  views : ∀ view ∈ first.context.views, view.isData = true
  found : ∀ entry ∈ first.context.frame.found, entry.2.isData = true
  kept : kept first = kept second

section Sessions

variable {α β : Type} {kept : Session → β} {s t : Session}

theorem Session.SameData.symm (same : s.SameData kept t) : t.SameData kept s where
  scope := same.scope.symm
  context := same.context.symm
  views := same.context ▸ same.views
  found := same.context ▸ same.found
  kept := same.kept.symm

theorem Session.SameData.trans {u : Session} (same : s.SameData kept t)
    (again : t.SameData kept u) : s.SameData kept u :=
  { same with
    scope := same.scope.trans again.scope
    context := same.context.trans again.context
    kept := same.kept.trans again.kept }

theorem preserve_trans {first second third : Action α}
    (preserve : Preserve (Session.SameData kept) first second)
    (again : Preserve (Session.SameData kept) second third) :
    Preserve (Session.SameData kept) first third := by
  intro s t same
  obtain ⟨outcome, after⟩ := preserve s t same
  obtain ⟨outcome', after'⟩ := again t t (same.symm.trans same)
  exact ⟨outcome.trans outcome', after.trans after'⟩

theorem preserve_symm {first second : Action α}
    (preserve : Preserve (Session.SameData kept) first second) :
    Preserve (Session.SameData kept) second first := by
  intro s t same
  obtain ⟨outcome, after⟩ := preserve t s same.symm
  exact ⟨outcome.symm, after.symm⟩

theorem scopeShared_sameData (unscoped : Unscoped kept) :
    ScopeShared (Session.SameData kept) where
  scope same := same.scope
  withScope {s t} scope same :=
    { same with
      scope := rfl
      kept := (unscoped s scope s.context s.log).trans
        (same.kept.trans (unscoped t scope t.context t.log).symm) }
  record {s t} event same :=
    { same with
      kept := (unscoped s s.scope s.context (event :: s.log)).trans
        (same.kept.trans (unscoped t t.scope t.context (event :: t.log)).symm) }

theorem isData_of_find {context after : Context} {name : String} {value : Value}
    (views : ∀ view ∈ context.views, view.isData = true)
    (found : ∀ entry ∈ context.frame.found, entry.2.isData = true)
    (there : context.find name = .ok (value, after)) :
    value.isData = true ∧ after.views = context.views ∧
      ∀ entry ∈ after.frame.found, entry.2.isData = true := by
  unfold Context.find at there
  split at there
  next =>
    cases there
    exact ⟨views _ List.mem_cons_self, rfl, found⟩
  next =>
    split at there
    next known =>
      cases there
      obtain ⟨before, behind, entries, -⟩ := List.lookup_eq_some_iff.1 known
      exact ⟨found (name, value) (by simp [entries]), rfl, found⟩
    next =>
      obtain ⟨result, resolved, there⟩ := exists_ok_of_bind there
      cases there
      have isData := isData_of_resolve views resolved
      exact ⟨isData, rfl, List.forall_mem_cons.2 ⟨isData, found⟩⟩

theorem lookup_bind_sameData (unscoped : Unscoped kept) {name : String}
    {next next' : Value → Action α} (onward : ∀ value, value.isData = true →
      Preserve (Session.SameData kept) (next value) (next' value)) :
    Preserve (Session.SameData kept) (lookup name >>= next) (lookup name >>= next') := by
  intro s t same
  cases there : s.context.find name with
  | error fault =>
    rw [Action.bind_of_error (lookup_of_find_error there),
      Action.bind_of_error (lookup_of_find_error (same.context ▸ there))]
    exact ⟨rfl, same⟩
  | ok result =>
    obtain ⟨value, after⟩ := result
    obtain ⟨isData, views, found⟩ := isData_of_find same.views same.found there
    have done (u : Session) (there : u.context.find name = .ok (value, after)) :
        lookup name u = (.ok value, { u with context := after }) := by
      rw [lookup_of_find_ok there]
      cases value with
      | callable f => contradiction
      | _ => rfl
    rw [Action.bind_of_ok (done s there), Action.bind_of_ok (done t (same.context ▸ there))]
    refine onward value isData _ _
      { same with
        context := rfl
        views := views ▸ same.views
        found
        kept := ?_ }
    exact (unscoped s s.scope after s.log).trans
      (same.kept.trans (unscoped t t.scope after t.log).symm)

theorem Session.SameData.enter (unscoped : Unscoped kept) {context : Context}
    (views : ∀ view ∈ context.views, view.isData = true) (fresh : context.frame.found = [])
    (scope : s.scope = t.scope) (same : kept s = kept t) :
    Session.SameData kept { s with context } { t with context } where
  scope := scope
  context := rfl
  views := views
  found := by simp [fresh]
  kept := (unscoped s s.scope context s.log).trans
    (same.trans (unscoped t t.scope context t.log).symm)

theorem inFrame_sameData (unscoped : Unscoped kept) {view : Value} (isData : view.isData = true)
    {first second : Action α} (preserve : Preserve (Session.SameData kept) first second) :
    Preserve (Session.SameData kept) (Action.inFrame view first) (Action.inFrame view second) := by
  intro s t same
  have views : ∀ other ∈ (s.context.push view).views, other.isData = true :=
    List.forall_mem_cons.2 ⟨isData, same.views⟩
  obtain ⟨outcome, after⟩ := preserve _ _
    (Session.SameData.enter unscoped views rfl same.scope same.kept)
  simp only [Action.inFrame, ← same.context]
  refine ⟨outcome, { same with scope := after.scope, context := ?_, kept := ?_ }⟩
  · exact same.context
  · exact (unscoped _ _ s.context _).trans (after.kept.trans (unscoped _ _ t.context _).symm)

end Sessions

def Token.shown (token : Token) : List Token :=
  if token.kind = .comment then [] else token.spell id

mutual

def Node.shown : Node → List Node
  | .leaf token => token.shown.map .leaf
  | .block opener children _ => [.block (opener.unplaced id) (shownNodes children) 0]

def shownNodes : List Node → List Node
  | [] => []
  | node :: rest => node.shown ++ shownNodes rest

end

/-- Two jobs that differ in ways that data does not show: partials have the same sources, sources
have the same trees. -/
structure Job.Alike {β : Type} (kept : Session → β) (first second : Job) : Prop where
  escaper : first.engine.escaper = second.engine.escaper
  resolves (name : String) : Preserve (Session.SameData kept)
    (resolvePartial name (first.engine.partialsFor first.partials))
    (resolvePartial name (second.engine.partialsFor second.partials))
  parses (source : String) : Preserve (Session.SameData kept)
    (first.engine.parse source first.pair) (second.engine.parse source second.pair)

namespace Job

variable {β : Type} {kept : Session → β} {job job' : Job} {inner : Inner}

theorem renderNodes_append (job : Job) (inner : Inner) (before after : List Node) :
    job.renderNodes inner (before ++ after) = (do
      let text ← job.renderNodes inner before
      let more ← job.renderNodes inner after
      pure (text ++ more)) := by
  induction before with
  | nil => simp only [List.nil_append, renderNodes, pure_bind, String.empty_append, bind_pure]
  | cons node rest ih =>
    simp only [List.cons_append, renderNodes, ih, bind_assoc, pure_bind, String.append_assoc]

theorem renderNodes_singleton (job : Job) (inner : Inner) (node : Node) :
    job.renderNodes inner [node] = job.renderNode inner node := by
  simp [renderNodes]

theorem renderNodes_ofChars (job : Job) (inner : Inner) (text : List Char) :
    job.renderNodes inner ((text.map Token.ofChar).map .leaf) = pure (String.ofList text) := by
  induction text with
  | nil => rfl
  | cons c rest ih =>
    have first : job.renderNode inner (.leaf (Token.ofChar c)) = pure (String.singleton c) := rfl
    rw [List.map_cons, List.map_cons, renderNodes, first, ih, pure_bind, pure_bind]
    refine congrArg pure ?_
    rw [← String.toList_inj]
    simp

theorem Alike.withSource (alike : job.Alike kept job') (source source' : Option String) :
    Alike kept { job with source } { job' with source := source' } :=
  ⟨alike.escaper, alike.resolves, alike.parses⟩

theorem Alike.again (alike : job.Alike kept job') : job'.Alike kept job' :=
  ⟨rfl, fun name => preserve_trans (preserve_symm (alike.resolves name)) (alike.resolves name),
    fun source => preserve_trans (preserve_symm (alike.parses source)) (alike.parses source)⟩

def ShowsData (kept : Session → β) (inner : Inner) : Prop :=
  ∀ (job job' : Job) (nodes : List Node), job.Alike kept job' →
    Preserve (Session.SameData kept) (inner job nodes) (inner job' (shownNodes nodes))

theorem ShowsData.preserve (shows : ShowsData kept inner) (alike : job.Alike kept job')
    {nodes nodes' : List Node} (same : shownNodes nodes = shownNodes nodes') :
    Preserve (Session.SameData kept) (inner job nodes) (inner job' nodes') := by
  have first := shows job job' nodes alike
  have second := shows job' job' nodes' alike.again
  rw [same] at first
  exact preserve_trans first (preserve_symm second)

section Nodes

variable (unscoped : Unscoped kept) (alike : job.Alike kept job')

include unscoped

theorem eachItem_sameData {body body' : Action String}
    (preserve : Preserve (Session.SameData kept) body body') {items : List Value}
    (data : ∀ item ∈ items, item.isData = true) :
    Preserve (Session.SameData kept) (eachItem body items) (eachItem body' items) := by
  induction items with
  | nil => exact .pure ""
  | cons item rest ih =>
    rw [List.forall_mem_cons] at data
    refine .bind (inFrame_sameData unscoped data.1 preserve) fun text => ?_
    exact (ih data.2).bind fun others => .pure _

include alike

theorem escapedValue_sameData (name : String) :
    Preserve (Session.SameData kept) (job.escapedValue name) (job'.escapedValue name) := by
  unfold escapedValue
  rw [alike.escaper]
  refine lookup_bind_sameData unscoped fun value _ => ?_
  split
  · exact .pure _
  · exact (Preserve.ofHost _).bind fun text => .pure _

omit alike in
theorem plainValue_sameData (name : String) :
    Preserve (Session.SameData kept) (plainValue name) (plainValue name) := by
  refine lookup_bind_sameData unscoped fun value _ => ?_
  split
  · exact .pure _
  · exact .ofHost _

variable (shows : ShowsData kept inner)

include shows

omit unscoped in
theorem renderTree_sameData (tree : Tree) :
    Preserve (Session.SameData kept) (job.renderTree inner tree) (job'.renderTree inner tree) := by
  cases tree with
  | parsed nodes => exact shows.preserve alike rfl
  | foreign answer =>
    change Preserve _ (renderForeign answer) (renderForeign answer)
    unfold renderForeign
    split
    · exact .throw _
    · exact (Preserve.ofHost _).bind fun _ => .pure ""

theorem renderPartial_sameData (token : Token) :
    Preserve (Session.SameData kept) (job.renderPartial inner token)
      (job'.renderPartial inner (token.unplaced id)) := by
  unfold renderPartial
  refine (alike.resolves token.value).bind fun source => ?_
  cases source with
  | none => exact .pure ""
  | some found =>
    refine (alike.parses (partialSource token found)).bind fun tree => ?_
    have inside := renderTree_sameData (alike.withSource (some (partialSource token found))
      (some (partialSource token found))) shows tree
    exact inside.inPartial (scopeShared_sameData unscoped) token.value

theorem renderInverted_sameData (name : String) (children : List Node) :
    Preserve (Session.SameData kept) (job.renderInverted inner name children)
      (job'.renderInverted inner name (shownNodes children)) := by
  refine lookup_bind_sameData unscoped fun value _ => ?_
  split
  · exact shows job job' children alike
  · exact .pure ""

theorem renderSection_sameData (opener : Token) (children : List Node) (closeStart : Nat) :
    Preserve (Session.SameData kept) (job.renderSection inner opener children closeStart)
      (job'.renderSection inner (opener.unplaced id) (shownNodes children) 0) := by
  have body := shows job job' children alike
  refine lookup_bind_sameData unscoped fun value data => ?_
  split
  · exact .pure ""
  · cases value with
    | list items =>
      exact eachItem_sameData unscoped body (Value.isData_of_items? data rfl)
    | tuple items =>
      exact eachItem_sameData unscoped body (Value.isData_of_items? data rfl)
    | callable f => contradiction
    | bool b => exact body
    | _ => exact inFrame_sameData unscoped data body

theorem renderLeaf_sameData (token : Token) :
    Preserve (Session.SameData kept) (job.renderLeaf inner token)
      (job'.renderLeaf inner (token.unplaced id)) := by
  unfold renderLeaf
  dsimp only [Token.unplaced]
  cases token.kind with
  | escaped => exact escapedValue_sameData unscoped alike token.value
  | unescaped => exact plainValue_sameData unscoped token.value
  | partialTag => exact renderPartial_sameData unscoped alike shows token
  | _ => exact .pure _

theorem renderNode_sameData (node : Node) :
    Preserve (Session.SameData kept) (job.renderNode inner node)
      (job'.renderNodes inner node.shown) := by
  cases node with
  | leaf token =>
    change Preserve _ (job.renderLeaf inner token) _
    rw [Node.shown, Token.shown]
    split
    next isComment =>
      rw [renderLeaf, isComment]
      exact .pure ""
    next =>
      rw [Token.spell]
      split
      next isText =>
        rw [renderLeaf, isText, renderNodes_ofChars, String.ofList_toList]
        exact .pure token.value
      next =>
        rw [List.map_singleton, renderNodes_singleton]
        exact renderLeaf_sameData unscoped alike shows token
  | block opener children closeStart =>
    rw [Node.shown, renderNodes_singleton]
    unfold renderNode
    dsimp only [Token.unplaced]
    split
    · exact renderInverted_sameData unscoped alike shows opener.value children
    · exact renderSection_sameData unscoped alike shows opener children closeStart

theorem renderNodes_sameData (nodes : List Node) :
    Preserve (Session.SameData kept) (job.renderNodes inner nodes)
      (job'.renderNodes inner (shownNodes nodes)) := by
  induction nodes with
  | nil => exact .pure ""
  | cons node rest ih =>
    rw [shownNodes, renderNodes_append]
    refine (renderNode_sameData unscoped alike shows node).bind fun first => ?_
    exact ih.bind fun others => .pure _

end Nodes

theorem render_showsData (unscoped : Unscoped kept) (depth : Nat) :
    ShowsData kept (render depth) := by
  induction depth with
  | zero => exact fun _ _ _ _ => .throw .exhausted
  | succ depth ih => exact fun _ _ nodes alike => renderNodes_sameData unscoped alike ih nodes

theorem start_sameData (unscoped : Unscoped kept) (alike : job.Alike kept job') (depth : Nat)
    (tree : Tree) :
    Preserve (Session.SameData kept) (job.start depth tree) (job'.start depth tree) :=
  renderTree_sameData alike (render_showsData unscoped depth) tree

end Job

theorem Engine.renderTree_sameData {β : Type} {kept : Session → β} (unscoped : Unscoped kept)
    {engine engine' : Engine} {view : Value} (data : view.IsDataView) {partials partials' : Value}
    {source source' : Option String} {pair pair' : Delimiters} {depth : Nat} {tree tree' : Tree}
    (start : Preserve (Session.SameData kept)
      (Job.start depth ⟨engine, partials, source, pair⟩ tree)
      (Job.start depth ⟨engine', partials', source', pair'⟩ tree'))
    (limit : engine.maxPartialDepth = engine'.maxPartialDepth) (name : Option String)
    {s t : Session} (scope : s.scope = t.scope) (same : kept s = kept t) :
    (engine.renderTree depth tree view partials source pair name s).1 =
      (engine'.renderTree depth tree' view partials' source' pair' name t).1 := by
  have inRender := start.inRender (scopeShared_sameData unscoped) engine' name
  have begun : engine.inRender name (Job.start depth ⟨engine, partials, source, pair⟩ tree) =
      engine'.inRender name (Job.start depth ⟨engine, partials, source, pair⟩ tree) := by
    rw [Engine.inRender, limit, ← Engine.inRender]
  rw [← begun] at inRender
  exact (inRender _ _ (Session.SameData.enter unscoped data (found_ofView view) scope same)).1

end Mustache
