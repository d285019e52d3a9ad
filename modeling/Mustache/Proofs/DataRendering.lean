import Mustache.Proofs.Yielding

set_option autoImplicit false

namespace Mustache

open Mustache.Action (Yields)

def Outlook.IsData (outlook : Outlook) : Prop :=
  ∀ view ∈ outlook.views, view.isData = true

theorem Outlook.IsData.push {outlook : Outlook} (data : outlook.IsData) {view : Value}
    (isData : view.isData = true) : (outlook.push view).IsData :=
  List.forall_mem_cons.2 ⟨isData, data⟩

theorem Value.Inherited.find {holds : Value → Prop} (inherited : Value.Inherited holds)
    {outlook : Outlook} (held : ∀ view ∈ outlook.views, holds view) {name : String} {value : Value}
    (found : outlook.find name = .ok value) : holds value := by
  unfold Outlook.find at found
  split at found
  next =>
    obtain rfl := Except.ok.inj found
    cases views : outlook.views with
    | nil => exact inherited.null
    | cons view outer => exact held view (by simp [views])
  next => exact inherited.resolve held (ok_of_mapError found)

theorem Outlook.IsData.find {outlook : Outlook} (data : outlook.IsData) {name : String}
    {value : Value} (found : outlook.find name = .ok value) : value.isData = true :=
  Value.isData_inherited.find data found

/-- A view that is data; a chain of views is one if each of them is. -/
def Value.IsDataView (view : Value) : Prop :=
  ∀ frame ∈ (Context.ofView view).views, frame.isData = true

theorem Value.isDataView_of_isData {view : Value} (data : view.isData = true) :
    view.IsDataView := by
  have only : (Context.ofView view).views = [view] := by
    cases view with
    | chain views => contradiction
    | _ => rfl
  rw [IsDataView, only, List.forall_mem_singleton]
  exact data

def mappedSource (entries : List (Value × Value)) (name : String) :
    Except Fault (Option String) :=
  match (Value.valueAt? (.str name) entries).getD .null with
  | .null => .ok none
  | .str source => .ok (some source)
  | value => .error (.invalidPartialSource name value.typeName)

theorem resolvePartial_yields (outlook : Outlook) (entries : List (Value × Value))
    (name : String) :
    Yields (Session.At outlook) (resolvePartial name (.map entries))
      (mappedSource entries name) := by
  change Yields _ (partialText name _) _
  unfold partialText mappedSource
  cases (Value.valueAt? (.str name) entries).getD .null with
  | null => exact .andThen (record_yields _) (.pure _)
  | str source => exact .pure _
  | _ => exact .throw _

theorem parse_yields {α : Type} {holds : Session → Prop}
    (logged : ∀ s event, holds s → holds { s with log := event :: s.log })
    (engine : Engine) (source : String) (pair : Delimiters) {name : Option String}
    {next : Tree → Action α} {onward : List Node → Except Fault α}
    (later : ∀ nodes, parseTemplate source pair name = .ok nodes →
      Yields holds (next (.parsed nodes)) (onward nodes)) :
    Yields holds (engine.uncached.parse source pair name >>= next)
      (parseTemplate source pair name >>= onward) := by
  rw [Engine.parse_uncached, bind_assoc]
  refine .andThen (.update fun s held => logged s _ held) ?_
  rw [bind_assoc]
  refine .bind (.ofExcept _) fun nodes parsed => ?_
  rw [pure_bind]
  exact later nodes parsed

namespace Job

def style (job : Job) (entries : List (Value × Value)) : Style where
  escaper := job.engine.escaper
  pair := job.pair
  source? := mappedSource entries

/-- A job that escapes as a style has it, and whose partials have the style's delimiters and
sources. -/
structure Styled (job : Job) (style : Style) : Prop where
  escaper : job.engine.escaper = style.escaper
  pair : job.pair = style.pair
  resolves : ∀ outlook name, Yields (Session.At outlook)
    (resolvePartial name (job.engine.partialsFor job.partials)) (style.source? name)

theorem styled_of_mapped {job : Job} {entries : List (Value × Value)}
    (mapped : job.partials = .map entries) : job.Styled (job.style entries) := by
  refine ⟨rfl, rfl, fun outlook name => ?_⟩
  rw [mapped]
  exact resolvePartial_yields outlook entries name

section Nodes

variable {outlook : Outlook} {job : Job} {inner : Inner} {name : String}
  {found : Except Fault Value}

theorem escapedValue_yields (looked : Yields (Session.At outlook) (lookup name) found) :
    Yields (Session.At outlook) (job.escapedValue name)
      (found >>= written job.engine.escaper.escape) := by
  refine looked.bind fun value _ => ?_
  cases value with
  | null => exact .pure _
  | _ =>
    dsimp only [written]
    rw [map_eq_pure_bind]
    exact (Yields.ofHost _).bind fun text _ => .pure _

theorem plainValue_yields (looked : Yields (Session.At outlook) (lookup name) found) :
    Yields (Session.At outlook) (plainValue name) (found >>= written id) := by
  refine looked.bind fun value _ => ?_
  cases value with
  | null => exact .pure _
  | _ =>
    dsimp only [written]
    rw [id_map]
    exact .ofHost _

theorem eachItem_yields {body : Action String} {inside : Value → Except Fault String}
    {items : List Value} (framed : ∀ item ∈ items,
      Yields (Session.At (outlook.push item)) body (inside item)) :
    Yields (Session.At outlook) (eachItem body items) (writeItems inside items) := by
  induction items with
  | nil => exact .pure _
  | cons item rest ih =>
    rw [List.forall_mem_cons] at framed
    refine (inFrame_yields framed.1).bind fun first _ => ?_
    exact (ih framed.2).bind fun others _ => .pure _

section Bodies

variable {children : List Node} {here : Except Fault String} {inside : Value → Except Fault String}

theorem renderInverted_yields (looked : Yields (Session.At outlook) (lookup name) found)
    (body : Yields (Session.At outlook) (inner job children) here) :
    Yields (Session.At outlook) (job.renderInverted inner name children)
      (found >>= writeInverted here) := by
  refine looked.bind fun value _ => ?_
  unfold writeInverted
  split
  · exact body
  · exact .pure _

theorem renderSection_yields {opener : Token} (closeStart : Nat)
    (looked : Yields (Session.At outlook) (lookup opener.value) found)
    (data : ∀ value, found = .ok value → value.isData = true)
    (body : Yields (Session.At outlook) (inner job children) here)
    (framed : ∀ view, view.isData = true →
      Yields (Session.At (outlook.push view)) (inner job children) (inside view)) :
    Yields (Session.At outlook) (job.renderSection inner opener children closeStart)
      (found >>= writeSection here inside) := by
  refine looked.bind fun value isFound => ?_
  have isData := data value isFound
  have items : ∀ items, value.items? = some items →
      Yields (Session.At outlook) (eachItem (inner job children) items)
        (writeItems inside items) :=
    fun items listed => eachItem_yields fun item member =>
      framed item (Value.isData_of_items? isData listed item member)
  unfold writeSection
  split
  · exact .pure _
  · cases value with
    | list found => exact items found rfl
    | tuple found => exact items found rfl
    | callable f => contradiction
    | bool b => exact body
    | _ => exact inFrame_yields (framed _ isData)

end Bodies

theorem renderPartial_yields_of {style : Style} {writer : Writer} {token : Token}
    (styled : job.Styled style)
    (yields : ∀ (found : String) (nodes : List Node) (inside : Outlook),
      style.source? token.value = .ok (some found) →
      parseTemplate (partialSource token found) style.pair = .ok nodes →
      outlook.inPartial token.value = .ok inside →
        Yields (Session.At inside)
          (inner (Job.uncached { job with source := some (partialSource token found) }) nodes)
          (writer inside nodes)) :
    Yields (Session.At outlook) (job.uncached.renderPartial inner token)
      (style.writePartial writer outlook token) := by
  refine (styled.resolves outlook token.value).bind fun source there => ?_
  cases source with
  | none => exact .pure _
  | some found =>
    rw [← styled.pair] at yields ⊢
    refine parse_yields (fun s event at' => { at' with }) job.engine _ job.pair
      fun nodes parsed => ?_
    exact inPartial_yields fun inside entered => yields found nodes inside there parsed entered

end Nodes

def InnerWrites (style : Style) (inner : Inner) (writer : Writer) : Prop :=
  ∀ (job : Job) (nodes : List Node) (outlook : Outlook), job.Styled style → outlook.IsData →
    Yields (Session.At outlook) (inner job.uncached nodes) (writer outlook nodes)

section Data

variable {style : Style} {inner : Inner} {writer : Writer} {job : Job} {outlook : Outlook}
  (writes : InnerWrites style inner writer) (styled : job.Styled style) (data : outlook.IsData)

include data

theorem lookup_yields_data (name : String) :
    Yields (Session.At outlook) (lookup name) (outlook.find name) := by
  refine lookup_yields_found fun f found => ?_
  have isData := data.find found
  contradiction

include writes styled

theorem renderPartial_yields (token : Token) :
    Yields (Session.At outlook) (job.uncached.renderPartial inner token)
      (style.writePartial writer outlook token) := by
  refine renderPartial_yields_of styled fun found nodes inside _ _ entered => ?_
  have isData : inside.IsData := by rwa [Outlook.IsData, Outlook.views_of_inPartial entered]
  exact writes { job with source := some (partialSource token found) } nodes inside { styled with }
    isData

theorem renderLeaf_yields (token : Token) :
    Yields (Session.At outlook) (job.uncached.renderLeaf inner token)
      (style.writeLeaf writer outlook token) := by
  have looked := lookup_yields_data data token.value
  unfold renderLeaf Style.writeLeaf
  cases token.kind with
  | text => exact .pure _
  | escaped =>
    rw [← styled.escaper]
    exact escapedValue_yields looked
  | unescaped => exact plainValue_yields looked
  | partialTag => exact renderPartial_yields writes styled data token
  | _ => exact .pure _

theorem renderNode_yields (node : Node) :
    Yields (Session.At outlook) (job.uncached.renderNode inner node)
      (style.writeNode writer outlook node) := by
  cases node with
  | leaf token => exact renderLeaf_yields writes styled data token
  | block opener children closeStart =>
    have looked := lookup_yields_data data opener.value
    have body := writes job children outlook styled data
    unfold renderNode Style.writeNode
    dsimp only
    split
    · exact renderInverted_yields looked body
    · refine renderSection_yields closeStart looked (fun _ => data.find) body fun view isData => ?_
      exact writes job children (outlook.push view) styled (data.push isData)

theorem renderNodes_yields (nodes : List Node) :
    Yields (Session.At outlook) (job.uncached.renderNodes inner nodes)
      (style.writeNodes writer outlook nodes) := by
  induction nodes with
  | nil => exact .pure _
  | cons node rest ih =>
    refine (renderNode_yields writes styled data node).bind fun first _ => ?_
    exact ih.bind fun others _ => .pure _

end Data

theorem render_writes (style : Style) (depth : Nat) :
    InnerWrites style (render depth) (style.write depth) := by
  induction depth with
  | zero => exact fun _ _ _ _ _ => .throw _
  | succ depth ih => exact fun _ nodes _ styled data => renderNodes_yields ih styled data nodes

end Job

namespace Engine

/-- A session outside of any render, in whose caches the engine finds under the pair no tree of
another source. -/
structure Ready (engine : Engine) (pair : Delimiters) (s : Session) : Prop where
  outside : s.scope = none
  kept : engine.cache = .nothing ∨
    ∃ slot inUse, engine.cache = .keepFirst slot ∧ ToldApart inUse ∧ inUse pair ∧
      Stored inUse s.caches

theorem Ready.ofEmpty {engine : Engine} {slot : Nat} {s : Session} (pair : Delimiters)
    (outside : s.scope = none) (keeps : engine.cache = .keepFirst slot)
    (empty : ∀ cache ∈ s.caches, cache.entries = []) : engine.Ready pair s := by
  refine ⟨outside, .inr ⟨slot, (· = pair), keeps, ?_, rfl, ?_⟩⟩
  · rintro p q rfl rfl -
    rfl
  · intro cache member entry kept
    rw [empty cache member] at kept
    cases kept

def outlook (engine : Engine) (view : Value) : Outlook where
  views := (Context.ofView view).views
  scope := some { maxPartialDepth := engine.maxPartialDepth }

def outlookNamed (engine : Engine) (name : Option String) (view : Value) : Outlook where
  views := (Context.ofView view).views
  scope := some { templateName := name, maxPartialDepth := engine.maxPartialDepth }

def style (engine : Engine) (pair : Delimiters) (entries : List (Value × Value)) : Style where
  escaper := engine.escaper
  pair := pair
  source? := mappedSource entries

section Renders

variable {engine : Engine} {pair : Delimiters} {tags view : Value} {source : String}
  {entries : List (Value × Value)} {s : Session}

theorem found_ofView (view : Value) : (Context.ofView view).frame.found = [] := by
  unfold Context.ofView
  split <;> rfl

theorem at_outlookNamed (engine : Engine) (name : Option String) (view : Value) (s : Session) :
    Session.At (engine.outlookNamed name view)
      { s with
        scope := some { templateName := name, maxPartialDepth := engine.maxPartialDepth }
        context := .ofView view } := by
  refine ⟨rfl, rfl, fun name value found => ?_⟩
  -- Nothing has been looked up yet.
  rw [found_ofView] at found
  cases found

theorem renderTree_yields {name : Option String} {partials : Value} {depth : Nat}
    {nodes : List Node} {outcome : Except Fault String}
    (yields : Yields (Session.At (engine.outlookNamed name view))
      (Job.render depth (Job.uncached ⟨engine, partials, some source, pair⟩) nodes) outcome) :
    Yields (fun t => t.scope = none)
      (engine.uncached.renderTree depth (.parsed nodes) view partials (some source) pair name)
      outcome := by
  intro t outside
  have begun := inRender_outside engine.uncached name
    (Job.render depth (Job.uncached ⟨engine, partials, some source, pair⟩) nodes)
    (show Session.scope { t with context := .ofView view } = none from outside)
  obtain ⟨written, -⟩ := yields _ (at_outlookNamed engine name view t)
  exact ⟨(congrArg Prod.fst begun).trans written,
    (congrArg (fun run => run.2.scope) begun).trans outside⟩

theorem Ready.render_eq_uncached (ready : engine.Ready pair s)
    (paired : engine.pairFor tags = .ok pair) (depth : Nat) (template view partials : Value) :
    (engine.render depth template view partials tags s).1 =
      (engine.uncached.render depth template view partials tags s).1 := by
  rcases ready.kept with nothing | ⟨slot, inUse, keeps, apart, used, stored⟩
  · rw [uncached_of_nothing nothing]
  · have named : ∀ other, engine.pairFor tags = .ok other → inUse other := by
      intro other given
      obtain rfl := Except.ok.inj (paired.symm.trans given)
      exact used
    exact (render_agree apart keeps named depth template view partials s s
      ⟨rfl, rfl, rfl, rfl, stored⟩).1

theorem render_of_yields {partials : Value} {depth : Nat}
    {outcome : List Node → Except Fault String} (ready : engine.Ready pair s)
    (paired : engine.pairFor tags = .ok pair)
    (yields : ∀ nodes, parseTemplate source pair = .ok nodes →
      Yields (Session.At (engine.outlook view))
        (Job.render depth (Job.uncached ⟨engine, partials, some source, pair⟩) nodes)
        (outcome nodes)) :
    (engine.render depth (.str source) view partials tags s).1 =
      (parseTemplate source pair >>= outcome) := by
  have whole : Yields (fun t => t.scope = none)
      (engine.uncached.parse source pair >>= fun tree =>
        engine.uncached.renderTree depth tree view partials (some source) pair) _ :=
    parse_yields (fun _ _ held => held) engine source pair fun nodes parsed =>
      renderTree_yields (yields nodes parsed)
  rw [ready.render_eq_uncached paired]
  unfold Engine.render
  simp only [pairFor_uncached, paired]
  exact (whole s ready.outside).1

theorem render_of_data (ready : engine.Ready pair s) (paired : engine.pairFor tags = .ok pair)
    (data : view.IsDataView) (depth : Nat) :
    (engine.render depth (.str source) view (.map entries) tags s).1 =
      (parseTemplate source pair >>=
        (engine.style pair entries).write depth (engine.outlook view)) :=
  render_of_yields ready paired fun nodes _ =>
    Job.render_writes (engine.style pair entries) depth ⟨engine, .map entries, some source, pair⟩
      nodes (engine.outlook view) (Job.styled_of_mapped rfl) data

theorem render_of_parsed (ready : engine.Ready pair s) (paired : engine.pairFor tags = .ok pair)
    (data : view.IsDataView) {depth : Nat} {nodes : List Node}
    (parsed : parseTemplate source pair = .ok nodes) {outcome : Except Fault String}
    (wrote : (engine.style pair entries).write depth (engine.outlook view) nodes = outcome) :
    (engine.render depth (.str source) view (.map entries) tags s).1 = outcome := by
  rw [render_of_data ready paired data, parsed]
  exact wrote

theorem exists_parsed_of_render (ready : engine.Ready pair s)
    (paired : engine.pairFor tags = .ok pair) (data : view.IsDataView) {depth : Nat} {out : String}
    (rendered : (engine.render depth (.str source) view (.map entries) tags s).1 = .ok out) :
    ∃ nodes, parseTemplate source pair = .ok nodes ∧
      (engine.style pair entries).write depth (engine.outlook view) nodes = .ok out := by
  rw [render_of_data ready paired data] at rendered
  exact exists_ok_of_bind rendered

end Renders

end Engine

end Mustache
