import Mustache.Proofs.BoundName
import Mustache.Proofs.DataRendering
import Mustache.Proofs.SectionSpelling

set_option autoImplicit false

namespace Mustache

open Mustache.Action (Yields)

namespace Code

structure Echoes (code : Code) : Prop where
  takes : ∀ text render, (code.bind? [text, render]).isSome = true
  renders : code.body = .render (.arg 0)

structure MakesEcho (code : Code) : Prop where
  called : ∀ view,
    (code.bind? (if code.inspectable && code.requiredCount == 1 then [view] else [])).isSome = true
  makes : ∃ inner, code.body = .lambda inner ∧ inner.Echoes

def echoMember : Code :=
  .mk 0 [] true (.lambda (.mk 1 [.required true, .required true] true (.render (.arg 0))))

theorem makesEcho_echoMember : echoMember.MakesEcho :=
  ⟨fun _ => rfl, _, rfl, fun _ _ => rfl, rfl⟩

theorem exists_of_bind? {code : Code} {args bound : List Value}
    (binds : code.bind? args = some bound) : ∃ more, bound = args ++ more := by
  unfold bind? at binds
  dsimp only at binds
  repeat' split at binds
  · exact ⟨[], by simpa using (Option.some.inj binds).symm⟩
  · cases binds
  · cases binds
  · cases binds
  · exact ⟨_, (Option.some.inj binds).symm⟩

end Code

/-- The values that a name of sections is bound to where each section puts out its body once. -/
inductive Shows : Value → Prop
  | truth : Shows (.bool true)
  | echo {code : Code} (makes : code.MakesEcho) (serial : Nat) (owner : Option Value)
      (outer : List Value) : Shows (.callable (.written code serial owner outer))

section Calls

variable {α : Type} {outlook : Outlook} {outcome : Except Fault α} {next : Value → Action α}

theorem call_bind_yields {code : Code} {serial : Nat} {owner : Option Value}
    {outer args bound : List Value} {render? : Option (Value → Action Value)}
    (binds : code.bind? args = some bound)
    (body : ∀ callCount, Yields (Session.At outlook)
      (code.body.eval { serial, owner, outer, args := bound, callCount, render? } >>= next)
      outcome) :
    Yields (Session.At outlook) (code.call serial owner outer args render? >>= next) outcome := by
  rw [Code.call, binds]
  dsimp only
  rw [bind_assoc]
  refine .andThen (.update fun s at' => { at' with }) ?_
  rw [bind_assoc]
  refine .getBind fun s at' => ?_
  rw [bind_assoc]
  exact .andThen (record_yields _) (body _)

theorem lookup_echo_yields {name : String} {code : Code} {serial : Nat} {owner : Option Value}
    {outer : List Value} (makes : code.MakesEcho)
    (found : outlook.find name = .ok (.callable (.written code serial owner outer)))
    (made : ∀ (inner : Code) (serial : Nat) (outer : List Value), inner.Echoes →
      Yields (Session.At outlook) (next (.callable (.written inner serial owner outer))) outcome) :
    Yields (Session.At outlook) (lookup name >>= next) outcome := by
  have onward : (outlook.find name >>= fun _ => outcome) = outcome := by
    rw [found]
    rfl
  rw [← onward]
  refine lookup_bind_yields fun other there => ?_
  obtain rfl : _ = other := Except.ok.inj (found.symm.trans there)
  obtain ⟨bound, binds⟩ := Option.isSome_iff_exists.1 (makes.called (Value.innermost outlook.views))
  obtain ⟨inner, isLambda, echoes⟩ := makes.makes
  refine call_bind_yields binds fun callCount => ?_
  rw [isLambda, Expr.eval, bind_assoc]
  refine .getBind fun s at' => ?_
  rw [bind_assoc]
  refine .andThen (.set { at' with }) ?_
  rw [pure_bind]
  -- The serial number of the new function is not the same in every session.
  exact made inner s.nextSerial bound echoes

theorem lookup_shown_yields {name : String} {value : Value} (shows : Shows value)
    (found : outlook.find name = .ok value)
    (truth : Yields (Session.At outlook) (next (.bool true)) outcome)
    (made : ∀ (inner : Code) (serial : Nat) (owner : Option Value) (outer : List Value),
      inner.Echoes →
        Yields (Session.At outlook) (next (.callable (.written inner serial owner outer)))
          outcome) :
    Yields (Session.At outlook) (lookup name >>= next) outcome := by
  cases shows with
  | truth =>
    have plain : ∀ f, outlook.find name ≠ .ok (.callable f) := by simp [found]
    have looked := lookup_yields_found plain
    rw [found] at looked
    exact looked.andThen truth
  | echo makes serial owner outer =>
    exact lookup_echo_yields makes found fun inner serial outer => made inner serial owner outer

end Calls

namespace Job

section Lambdas

variable {outlook : Outlook} {job : Job} {inner : Inner} {text source : String}

theorem renderText_yields {scope : Scope} {nodes : List Node} {outcome : Except Fault String}
    (within : outlook.scope = some scope) (parsed : parseTemplate text job.pair = .ok nodes)
    (yields : Yields (Session.At outlook)
      (inner (Job.uncached { job with source := some text }) nodes) outcome) :
    Yields (Session.At outlook) (job.uncached.renderText inner (.str text))
      (Value.str <$> outcome) := by
  have onward : (parseTemplate text job.pair >>= fun _ => Value.str <$> outcome) =
      Value.str <$> outcome := by
    rw [parsed]
    rfl
  rw [← onward]
  refine parse_yields (fun s event at' => { at' with }) job.engine text job.pair
    fun others again => ?_
  obtain rfl : nodes = others := Except.ok.inj (parsed.symm.trans again)
  rw [map_eq_pure_bind]
  refine .bind (.getBind fun s at' => ?_) fun output _ => .pure _
  rw [at'.scope, within]
  exact yields

theorem callLambda_yields {code : Code} {serial : Nat} {owner : Option Value} {outer : List Value}
    {opener : Token} {children : List Node} {closeStart : Nat} {outcome : Except Fault String}
    (echoes : code.Echoes) (sourced : job.source = some source)
    (rendered : Yields (Session.At outlook)
      (job.renderText inner (.str (textBetween source opener.stop closeStart)))
      (Value.str <$> outcome)) :
    Yields (Session.At outlook)
      (job.callLambda inner opener children closeStart (.written code serial owner outer))
      outcome := by
  obtain ⟨bound, binds⟩ := Option.isSome_iff_exists.1
    (echoes.takes (.str (textBetween source opener.stop closeStart)) (.callable .sectionRender))
  obtain ⟨more, rfl⟩ := Code.exists_of_bind? binds
  have same :
      ((Value.str <$> outcome) >>= fun result => result.partText.mapError .host) = outcome := by
    cases outcome <;> rfl
  rw [callLambda, sourced]
  refine .andThen (record_yields _) (call_bind_yields binds fun callCount => ?_)
  rw [echoes.renders, Expr.eval, Expr.eval, pure_bind, ← same]
  exact rendered.bind fun result _ => .ofHost _

theorem renderLambda_yields (job : Job) {code : Code} {serial : Nat} {owner : Option Value}
    {outer : List Value} {opener : Token} {children : List Node} {closeStart : Nat} {scope : Scope}
    {body : List Node} {outcome : Except Fault String} (echoes : code.Echoes)
    (within : outlook.scope = some scope)
    (parsed : parseTemplate (textBetween source opener.stop closeStart) job.pair = .ok body)
    (yields : Yields (Session.At outlook) (inner (Job.uncached
      { job with source := some (textBetween source opener.stop closeStart) }) body) outcome) :
    Yields (Session.At outlook)
      ((Job.uncached { job with source := some source }).callLambda inner opener children closeStart
        (.written code serial owner outer)) outcome :=
  callLambda_yields echoes rfl
    (@renderText_yields _ { job with source := some source } _ _ _ body _ within parsed yields)

end Lambdas

end Job

theorem FoundAnyway.isData {front : List Value} {bound name : String}
    {entries : List (Value × Value)} {scope : Scope} {value there : Value}
    (found : FoundAnyway front bound entries scope name)
    (isThere : (Outlook.over front bound entries scope value).find name = .ok there) :
    there.isData = true := by
  obtain ⟨outcome, same, isData⟩ := found
  exact isData there ((same value).symm.trans isThere)

theorem FoundAnyway.lookup_yields {front : List Value} {bound name : String}
    {entries : List (Value × Value)} {scope : Scope} {value : Value}
    (found : FoundAnyway front bound entries scope name) :
    Yields (Session.At (.over front bound entries scope value)) (lookup name)
      ((Outlook.over front bound entries scope (.bool true)).find name) := by
  have same : (Outlook.over front bound entries scope (.bool true)).find name =
      (Outlook.over front bound entries scope value).find name := by
    obtain ⟨outcome, same, -⟩ := found
    rw [same, same]
  rw [same]
  refine lookup_yields_found fun f isFunction => ?_
  have := found.isData isFunction
  contradiction

/-- Text is visible, there is no partial, and the name is met only as the whole name of sections. -/
def Piece.OnlyOpens (bound : String) : Piece → Prop
  | .text _ c => isBlank c = false
  | .tag kind value _ _ _ =>
      kind ≠ .partialTag ∧ (kind.writesValue = true → value ≠ "." ∧ ¬ Touches bound value) ∧
        (kind.opensBody = true → value ≠ "." ∧ (value = bound ∨ ¬ Touches bound value))

instance (bound : String) : (piece : Piece) → Decidable (piece.OnlyOpens bound)
  | .text _ c => inferInstanceAs (Decidable (isBlank c = false))
  | .tag _ _ _ _ _ => inferInstanceAs (Decidable (_ ∧ _ ∧ _))

theorem onlyOpens_moved {bound : String} {piece : Piece} {distance : Nat} :
    (piece.moved distance).OnlyOpens bound ↔ piece.OnlyOpens bound := by
  cases piece <;> exact Iff.rfl

/-- Nodes of a source in which a name only opens sections, and those under the given delimiters. -/
structure OpensOnly (bound : String) (pair : Delimiters) (source : String) (nodes : List Node) :
    Prop where
  parsed : ∃ whole, parseTemplate source pair = .ok whole ∧
    ∀ node, Node.Within node nodes → Node.Within node whole
  pieces : ∀ piece ∈ (scan pair source.toList).pieces, piece.OnlyOpens bound
  inForce : ∀ start stop pair', .tag .sectionTag bound start stop pair' ∈
    (scan pair source.toList).pieces → pair' = pair

namespace OpensOnly

variable {bound source : String} {pair : Delimiters} {nodes : List Node}

theorem sub (opens : OpensOnly bound pair source nodes) {others : List Node}
    (within : ∀ node, Node.Within node others → Node.Within node nodes) :
    OpensOnly bound pair source others := by
  obtain ⟨whole, parsed, inWhole⟩ := opens.parsed
  exact ⟨⟨whole, parsed, fun node found => inWhole node (within node found)⟩, opens.pieces,
    opens.inForce⟩

theorem visible (opens : OpensOnly bound pair source nodes) :
    ∀ piece ∈ (scan pair source.toList).pieces, piece.Visible := by
  intro piece member
  have suits := opens.pieces piece member
  cases piece with
  | text start c => exact suits
  | tag kind value start stop inForce => trivial

theorem exists_tag (opens : OpensOnly bound pair source nodes) {node : Node}
    (within : Node.Within node nodes) (isTag : node.token.isTag = true) :
    ∃ inForce, .tag node.token.kind node.token.value node.token.start node.token.stop inForce ∈
      (scan pair source.toList).pieces := by
  obtain ⟨whole, parsed, inWhole⟩ := opens.parsed
  obtain ⟨piece, member, isToken⟩ := exists_piece_of_within parsed (inWhole node within) isTag
  cases piece with
  | text start c => cases isToken
  | tag kind value start stop inForce =>
    obtain ⟨rfl, rfl, rfl, rfl⟩ : kind = node.token.kind ∧ value = node.token.value ∧
        start = node.token.start ∧ stop = node.token.stop := by
      simpa [Piece.bareTag?, Token.bare] using isToken
    exact ⟨inForce, member⟩

theorem of_tag (opens : OpensOnly bound pair source nodes) {node : Node}
    (within : Node.Within node nodes) (isTag : node.token.isTag = true) :
    node.token.kind ≠ .partialTag ∧
      (node.token.kind.writesValue = true → node.token.value ≠ "." ∧
        ¬ Touches bound node.token.value) ∧
      (node.token.kind.opensBody = true → node.token.value ≠ "." ∧
        (node.token.value = bound ∨ ¬ Touches bound node.token.value)) := by
  obtain ⟨inForce, member⟩ := opens.exists_tag within isTag
  exact opens.pieces _ member

theorem ignores (opens : OpensOnly bound pair source nodes) (style : Style)
    (marks : LineMark → LineMark) : style.Ignores marks nodes := by
  intro token within isPartial
  exact absurd isPartial (opens.of_tag within (by simp [Node.token, Token.isTag, isPartial])).1

theorem of_opener (opens : OpensOnly bound pair source nodes) {opener : Token}
    {children : List Node} {closeStart : Nat}
    (within : Node.Within (.block opener children closeStart) nodes) :
    (opener.kind = .sectionTag ∨ opener.kind = .invertedTag) ∧ opener.value ≠ "." ∧
      (opener.value = bound ∨ ¬ Touches bound opener.value) := by
  obtain ⟨whole, parsed, inWhole⟩ := opens.parsed
  obtain ⟨-, -, nests⟩ := parseTemplate_eq_ok_iff.1 parsed
  obtain ⟨_, _, _, _, -, -, opensBody, -⟩ := nests.exists_section (inWhole _ within)
  refine ⟨?_, (opens.of_tag within (isTag_of_opensBody opensBody)).2.2 opensBody⟩
  cases known : opener.kind <;> simp [known, Kind.opensBody] at opensBody ⊢

theorem sectionText (opens : OpensOnly bound pair source nodes) {opener : Token}
    {children : List Node} {closeStart : Nat}
    (within : Node.Within (.block opener children closeStart) nodes)
    (isSection : opener.kind = .sectionTag) (named : opener.value = bound) :
    ∃ body, parseTemplate (textBetween source opener.stop closeStart) pair = .ok body ∧
      spelled unmarked body = spelled unmarked children ∧
      OpensOnly bound pair (textBetween source opener.stop closeStart) body := by
  obtain ⟨whole, parsed, inWhole⟩ := opens.parsed
  obtain ⟨body, parsedBody, spelling, among⟩ := exists_parseTemplate_of_section parsed
    opens.visible (inWhole _ within) (by rw [isSection, named]; exact opens.inForce _ _)
  refine ⟨body, parsedBody, spelling, ⟨body, parsedBody, fun _ found => found⟩, ?_, ?_⟩
  · exact fun piece member => onlyOpens_moved.1 (opens.pieces _ (among piece member))
  · exact fun start stop pair' member => opens.inForce _ _ pair' (among _ member)

end OpensOnly

namespace Job

def InnerShows (job : Job) (bound : String) (entries : List (Value × Value)) (scope : Scope)
    (value : Value) (inner : Inner) (writer : Writer) : Prop :=
  ∀ (source : String) (nodes : List Node) (front : List Value),
    OpensOnly bound job.pair source nodes → (∀ view ∈ front, view.isData = true) →
      Yields (Session.At (.over front bound entries scope value))
        (inner (Job.uncached { job with source := some source }) nodes)
        (writer (.over front bound entries scope (.bool true)) nodes)

section Nodes

variable {job : Job} {bound source : String} {entries : List (Value × Value)} {scope : Scope}
  {value : Value} {inner : Inner} {front : List Value} {depth : Nat}
  (inside : job.InnerShows bound entries scope value inner ((job.style []).write depth))
  (shows : Shows value) (entriesAre : ∀ entry ∈ entries, entry.2.isData = true)
  (data : ∀ view ∈ front, view.isData = true)

section Parts

include data

section Leaves

include entriesAre

theorem renderLeaf_shows {token : Token} (opens : OpensOnly bound job.pair source [.leaf token]) :
    Yields (Session.At (.over front bound entries scope value))
      (renderLeaf (Job.uncached { job with source := some source }) inner token)
      ((job.style []).writeLeaf ((job.style []).write depth)
        (.over front bound entries scope (.bool true)) token) := by
  have suits (isTag : token.isTag = true) := opens.of_tag (.head (.leaf token) []) isTag
  have looked (isTag : token.isTag = true) (writes : token.kind.writesValue = true) :
      Yields (Session.At (.over front bound entries scope value)) (lookup token.value)
        ((Outlook.over front bound entries scope (.bool true)).find token.value) := by
    obtain ⟨named, untouched⟩ := (suits isTag).2.1 writes
    exact (foundAnyway_of_untouched scope data entriesAre named untouched).lookup_yields
  obtain ⟨kind, name, start, stop, mark⟩ := token
  cases kind with
  | text => exact .pure _
  | escaped => exact escapedValue_yields (looked rfl rfl)
  | unescaped => exact plainValue_yields (looked rfl rfl)
  | partialTag => exact absurd rfl (suits rfl).1
  | _ => exact .pure _

end Leaves

include inside shows

theorem renderBound_shows {opener : Token} {children : List Node} {closeStart : Nat}
    (opens : OpensOnly bound job.pair source [.block opener children closeStart])
    (isSection : opener.kind = .sectionTag) (named : opener.value = bound)
    (found : ∀ value,
      (Outlook.over front bound entries scope value).find opener.value = .ok value) :
    Yields (Session.At (.over front bound entries scope value))
      (renderSection (Job.uncached { job with source := some source }) inner opener children
        closeStart)
      ((job.style []).write depth (.over front bound entries scope (.bool true)) children) := by
  obtain ⟨body, parsed, spelling, text⟩ := opens.sectionText (.head _ []) isSection named
  have childrenOpen := opens.sub fun node within => .inside within
  refine lookup_shown_yields shows (found value) ?_ ?_
  · exact inside source children front childrenOpen data
  · intro code serial owner outer echoes
    -- The text is parsed anew, into a tree that is spelled like the body.
    have same : (job.style []).write depth (.over front bound entries scope (.bool true)) body =
        (job.style []).write depth (.over front bound entries scope (.bool true)) children := by
      rw [← Style.write_spelled _ _ _ (text.ignores _ unmarked), spelling,
        Style.write_spelled _ _ _ (childrenOpen.ignores _ unmarked)]
    rw [← same]
    exact renderLambda_yields job echoes rfl parsed (inside _ body front text data)

end Parts

include inside shows entriesAre

theorem renderNode_shows (data : ∀ view ∈ front, view.isData = true) {node : Node}
    (opens : OpensOnly bound job.pair source [node]) :
    Yields (Session.At (.over front bound entries scope value))
      (renderNode (Job.uncached { job with source := some source }) inner node)
      ((job.style []).writeNode ((job.style []).write depth)
        (.over front bound entries scope (.bool true)) node) := by
  cases node with
  | leaf token => exact renderLeaf_shows entriesAre data opens
  | block opener children closeStart =>
    obtain ⟨kind, named, clear⟩ := opens.of_opener (.head _ [])
    have childrenOpen := opens.sub fun node within => .inside within
    have body := inside source children front childrenOpen data
    rcases foundAnyway_or_bound scope data entriesAre named clear with found | ⟨isBound, found⟩
    · unfold renderNode Style.writeNode
      dsimp only
      split
      · exact renderInverted_yields found.lookup_yields body
      · refine renderSection_yields closeStart found.lookup_yields (fun _ => found.isData) body
          fun view isData => ?_
        exact inside source children (view :: front) childrenOpen
          (List.forall_mem_cons.2 ⟨isData, data⟩)
    · by_cases inverted : opener.kind = .invertedTag
      · rw [renderNode, if_pos inverted, Style.writeNode, found]
        simp only [inverted]
        exact lookup_shown_yields shows (found value) (.pure _) fun _ _ _ _ _ => .pure _
      · rw [renderNode, if_neg inverted, Style.writeNode, found]
        simp only [inverted]
        exact renderBound_shows inside shows data opens (kind.resolve_right inverted) isBound found

theorem renderNodes_shows (data : ∀ view ∈ front, view.isData = true) {nodes : List Node}
    (opens : OpensOnly bound job.pair source nodes) :
    Yields (Session.At (.over front bound entries scope value))
      (renderNodes (Job.uncached { job with source := some source }) inner nodes)
      ((job.style []).writeNodes ((job.style []).write depth)
        (.over front bound entries scope (.bool true)) nodes) := by
  induction nodes with
  | nil => exact .pure _
  | cons node rest ih =>
    have here := opens.sub fun other (within : Node.Within other [node]) => within.of_singleton rest
    refine (renderNode_shows inside shows entriesAre data here).bind fun first _ => ?_
    refine (ih (opens.sub fun other within => .tail within)).bind fun others _ => .pure _

end Nodes

theorem render_shows {bound : String} {entries : List (Value × Value)} {value : Value}
    (job : Job) (scope : Scope) (shows : Shows value)
    (entriesAre : ∀ entry ∈ entries, entry.2.isData = true) (depth : Nat) :
    job.InnerShows bound entries scope value (render depth) ((job.style []).write depth) := by
  -- The text of a section is rendered at the depth of its body.
  induction depth with
  | zero => exact fun _ _ _ _ _ => .throw _
  | succ depth ih =>
    exact fun source nodes front opens data => renderNodes_shows ih shows entriesAre data opens

end Job

section Renders

variable {engine : Engine} {tags partials : Value} {pair : Delimiters} {source name : String}
  {entries : List (Value × Value)} {code : Code} {serial : Nat} {owner : Option Value}
  {outer : List Value} {s t : Session}

theorem render_of_shows {value : Value} (ready : engine.Ready pair s)
    (paired : engine.pairFor tags = .ok pair) (shows : Shows value)
    (entriesAre : ∀ entry ∈ entries, entry.2.isData = true)
    (opensOnly : ∀ piece ∈ (scan pair source.toList).pieces, piece.OnlyOpens name)
    (inForce : ∀ start stop pair', .tag .sectionTag name start stop pair' ∈
      (scan pair source.toList).pieces → pair' = pair) (depth : Nat) :
    (engine.render depth (.str source) (.binding name entries value) partials tags s).1 =
      (parseTemplate source pair >>= (engine.style pair []).write depth
        (engine.outlook (.binding name entries (.bool true)))) :=
  Engine.render_of_yields ready paired fun nodes parsed =>
    Job.render_shows ⟨engine, partials, none, pair⟩ { maxPartialDepth := engine.maxPartialDepth }
      shows entriesAre depth source nodes []
      ⟨⟨nodes, parsed, fun _ found => found⟩, opensOnly, inForce⟩ (by simp)

theorem render_echo (ready : engine.Ready pair s) (ready' : engine.Ready pair t)
    (paired : engine.pairFor tags = .ok pair) (makes : code.MakesEcho)
    (entriesAre : ∀ entry ∈ entries, entry.2.isData = true)
    (opensOnly : ∀ piece ∈ (scan pair source.toList).pieces, piece.OnlyOpens name)
    (inForce : ∀ start stop pair', .tag .sectionTag name start stop pair' ∈
      (scan pair source.toList).pieces → pair' = pair) (depth : Nat) :
    (engine.render depth (.str source)
        (.binding name entries (.callable (.written code serial owner outer))) partials tags s).1 =
      (engine.render depth (.str source) (.binding name entries (.bool true)) partials tags
        t).1 := by
  rw [render_of_shows ready paired (.echo makes serial owner outer) entriesAre opensOnly inForce,
    render_of_shows ready' paired .truth entriesAre opensOnly inForce]

end Renders

theorem render_echo_of_nested_sections :
    (Engine.render { cache := .keepFirst 0 } 4
      (.str "{{#l}}{{#l}}a{{=<% %>=}}<%#s%>b<%/s%><%/l%><%/l%>")
      (.binding "l" [(.str "s", .bool true)] (.callable (.written Code.echoMember 0 none [])))
      (.map []) .null { caches := [{}] }).1 = .ok "ab" := by
  let engine : Engine := { cache := .keepFirst 0 }
  let view := Value.binding "l" [(.str "s", .bool true)]
  let changed : Delimiters := ⟨['<', '%'], ['%', '>'], by simp, by simp⟩
  have ready : engine.Ready .standard { caches := [{}] } := .ofEmpty .standard rfl rfl (by simp)
  have pieces : (scan .standard "{{#l}}{{#l}}a{{=<% %>=}}<%#s%>b<%/s%><%/l%><%/l%>".toList).pieces =
      [.tag .sectionTag "l" 0 6 .standard, .tag .sectionTag "l" 6 12 .standard, .text 12 'a',
        .tag .delimiterTag "<% %>" 13 24 .standard, .tag .sectionTag "s" 24 30 changed,
        .text 30 'b', .tag .closeTag "s" 31 37 changed, .tag .closeTag "l" 37 43 changed,
        .tag .closeTag "l" 43 49 changed] := rfl
  have parsed : parseTemplate "{{#l}}{{#l}}a{{=<% %>=}}<%#s%>b<%/s%><%/l%><%/l%>" .standard none =
      .ok [.block ⟨.sectionTag, "l", 0, 6, {}⟩ [.block ⟨.sectionTag, "l", 6, 12, {}⟩
        [.leaf ⟨.text, "a", 12, 13, {}⟩, .leaf ⟨.delimiterTag, "<% %>", 13, 24, {}⟩,
          .block ⟨.sectionTag, "s", 24, 30, {}⟩ [.leaf ⟨.text, "b", 30, 31, {}⟩] 31] 37] 43] := rfl
  have data : (view (.bool true)).IsDataView := Value.isDataView_of_isData rfl
  have rendered := @Engine.render_of_parsed engine .standard .null _ _ [] _ ready rfl data 4 _
    parsed (.ok "ab") (by decide +kernel)
  have opensOnly : ∀ piece ∈ (scan .standard
      "{{#l}}{{#l}}a{{=<% %>=}}<%#s%>b<%/s%><%/l%><%/l%>".toList).pieces, piece.OnlyOpens "l" := by
    rw [pieces]
    decide
  have inForce : ∀ start stop pair', .tag .sectionTag "l" start stop pair' ∈ (scan .standard
      "{{#l}}{{#l}}a{{=<% %>=}}<%#s%>b<%/s%><%/l%><%/l%>".toList).pieces → pair' = .standard := by
    intro start stop pair' member
    rw [pieces] at member
    obtain ⟨-, -, same⟩ | ⟨-, -, same⟩ : _ ∨ _ := by simpa using member
    · exact same
    · exact same
  have same := @render_echo engine .null (.map []) .standard _ "l" [(.str "s", .bool true)] _ 0 none
    [] _ _ ready ready rfl Code.makesEcho_echoMember (by decide) opensOnly inForce 4
  exact same.trans rendered

/-- Where the delimiters have been changed the text of a section is another template, so an echo of
it is not its body. -/
theorem render_echo_under_changed_delimiters :
    (∀ piece ∈ (scan .standard "{{=<% %>=}}<%#l%><%x%><%/l%>".toList).pieces,
        piece.OnlyOpens "l") ∧
      Code.echoMember.MakesEcho ∧
      (Engine.render { cache := .keepFirst 0 } 3 (.str "{{=<% %>=}}<%#l%><%x%><%/l%>")
        (.binding "l" [(.str "x", .str "X")] (.callable (.written Code.echoMember 0 none [])))
        (.map []) .null { caches := [{}] }).1 = .ok "<%x%>" ∧
      (Engine.render { cache := .keepFirst 0 } 3 (.str "{{=<% %>=}}<%#l%><%x%><%/l%>")
        (.binding "l" [(.str "x", .str "X")] (.bool true)) (.map []) .null
        { caches := [{}] }).1 = .ok "X" := by
  let engine : Engine := { cache := .keepFirst 0 }
  let view := Value.binding "l" [(.str "x", .str "X")]
  have ready : engine.Ready .standard { caches := [{}] } := .ofEmpty .standard rfl rfl (by simp)
  have parsed : parseTemplate "{{=<% %>=}}<%#l%><%x%><%/l%>" .standard none = .ok
      [.leaf ⟨.delimiterTag, "<% %>", 0, 11, {}⟩, .block ⟨.sectionTag, "l", 11, 17, {}⟩
        [.leaf ⟨.escaped, "x", 17, 22, {}⟩] 22] := rfl
  have parsedText :
      parseTemplate (textBetween "{{=<% %>=}}<%#l%><%x%><%/l%>" 17 22) .standard none = .ok
        [.leaf ⟨.text, "<%x%>", 0, 5, {}⟩] := rfl
  have data : (view (.bool true)).IsDataView := Value.isDataView_of_isData rfl
  refine ⟨by decide +kernel, Code.makesEcho_echoMember, ?_, ?_⟩
  · rw [@Engine.render_of_yields engine .standard .null _ _ _ (.map []) 3 (fun _ => .ok "<%x%>")
      ready rfl]
    · rw [parsed]
      rfl
    · intro nodes again
      obtain rfl := Except.ok.inj (parsed.symm.trans again)
      let job : Job := ⟨engine, .map [], some "{{=<% %>=}}<%#l%><%x%><%/l%>", .standard⟩
      let outlook := engine.outlook (view (.callable (.written Code.echoMember 0 none [])))
      have text (job : Job) (inner : Job.Inner) : Yields (Session.At outlook)
          (job.renderNodes inner [.leaf ⟨.text, "<%x%>", 0, 5, {}⟩]) (.ok "<%x%>") :=
        .andThen (.pure "<%x%>") (.andThen (.pure "") (.pure "<%x%>"))
      have put : Yields (Session.At outlook) (job.uncached.renderSection (Job.render 2)
          ⟨.sectionTag, "l", 11, 17, {}⟩ [.leaf ⟨.escaped, "x", 17, 22, {}⟩] 22) (.ok "<%x%>") :=
        lookup_echo_yields Code.makesEcho_echoMember rfl fun inner serial outer echoes =>
          job.renderLambda_yields echoes rfl parsedText (text _ _)
      exact .andThen (.pure "") (.andThen (.andThen put (.andThen (.pure "") (.pure "<%x%>")))
        (.pure "<%x%>"))
  · refine @Engine.render_of_parsed engine .standard .null _ _ [] _ ready rfl data 3 _ parsed
      (.ok "X") ?_
    change joined (.ok "") (joined (joined (.ok (engine.escaper.escape "X")) (.ok "")) (.ok "")) = _
    decide +kernel

end Mustache
