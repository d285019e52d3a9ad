import Mustache.Proofs.DataRendering
import Mustache.Proofs.Nesting

set_option autoImplicit false

namespace Mustache

def markup : List Char :=
  ['<', '>', '"', '\'', '/', '\x60', '=']

theorem not_mem_entity {c d : Char} {entity : String} (isMarkup : c ∈ markup)
    (known : entity? d = some entity) : c ∉ entity.toList := by
  unfold entity? at known
  revert c
  split at known <;> cases known <;> simp [markup]

theorem not_mem_escapeChar {c : Char} (isMarkup : c ∈ markup) (d : Char) : c ∉ escapeChar d := by
  unfold escapeChar
  split
  next entity known => exact not_mem_entity isMarkup known
  next plain =>
    have escaped : ∀ c ∈ markup, entity? c ≠ none := by simp [markup, entity?]
    rw [List.mem_singleton]
    rintro rfl
    exact escaped c isMarkup plain

theorem not_mem_escapeHtml {c : Char} (isMarkup : c ∈ markup) (text : String) :
    c ∉ (escapeHtml text).toList := by
  rw [escapeHtml, String.toList_ofList, List.mem_flatMap]
  rintro ⟨d, -, inside⟩
  exact not_mem_escapeChar isMarkup d inside

def Outlook.bodies (outlook : Outlook) (kind : Kind) (value : Value) : List Outlook :=
  if kind = .invertedTag then
    if value.isFalsy || (value.items?.map List.isEmpty).getD false then [outlook] else []
  else if value.isFalsy then []
  else match value with
    | .list items | .tuple items => items.map outlook.push
    | .bool _ => [outlook]
    | value => [outlook.push value]

/-- Writing nodes takes in a tree: that of a partial whose tag is reached, or one that the writing
of such a tree takes in. -/
inductive Style.Takes (style : Style) : Outlook → List Node → List Node → Prop
  | tree {outlook inside : Outlook} {token : Token} {rest tree : List Node} {found : String}
      (isPartial : token.kind = .partialTag) (there : style.source? token.value = .ok (some found))
      (parsed : parseTemplate (Job.partialSource token found) style.pair = .ok tree)
      (entered : outlook.inPartial token.value = .ok inside) :
      Takes style outlook (.leaf token :: rest) tree
  | through {outlook inside : Outlook} {token : Token} {rest tree deeper : List Node}
      {found : String} (isPartial : token.kind = .partialTag)
      (there : style.source? token.value = .ok (some found))
      (parsed : parseTemplate (Job.partialSource token found) style.pair = .ok tree)
      (entered : outlook.inPartial token.value = .ok inside) :
      Takes style inside tree deeper → Takes style outlook (.leaf token :: rest) deeper
  | body {outlook inside : Outlook} {opener : Token} {children rest tree : List Node}
      {closeStart : Nat} {value : Value} (found : outlook.find opener.value = .ok value)
      (isBody : inside ∈ outlook.bodies opener.kind value) :
      Takes style inside children tree →
      Takes style outlook (.block opener children closeStart :: rest) tree
  | behind {outlook : Outlook} {node : Node} {rest tree : List Node} :
      Takes style outlook rest tree → Takes style outlook (node :: rest) tree

/-- A leaf of the tree writes its value as it is, or is text that holds the character. -/
def Bares (c : Char) (nodes : List Node) : Prop :=
  ∃ token, Node.Within (.leaf token) nodes ∧
    (token.kind = .unescaped ∨ token.kind = .text ∧ c ∈ token.value.toList)

section Writing

variable {style : Style} {inner : Writer} {outlook : Outlook} {c : Char} {out : String}

theorem exists_of_joined {first second : Except Fault String}
    (wrote : joined first second = .ok out) (member : c ∈ out.toList) :
    (∃ text, first = .ok text ∧ c ∈ text.toList) ∨ ∃ text, second = .ok text ∧ c ∈ text.toList := by
  obtain ⟨text, isFirst, wrote⟩ := exists_ok_of_bind wrote
  obtain ⟨more, isSecond, wrote⟩ := exists_ok_of_bind wrote
  obtain rfl := Except.ok.inj wrote
  rw [String.toList_append, List.mem_append] at member
  exact member.imp (fun inside => ⟨text, isFirst, inside⟩) fun inside => ⟨more, isSecond, inside⟩

theorem exists_of_writeItems {inside : Value → Except Fault String} {items : List Value}
    (wrote : writeItems inside items = .ok out) (member : c ∈ out.toList) :
    ∃ item ∈ items, ∃ text, inside item = .ok text ∧ c ∈ text.toList := by
  induction items generalizing out with
  | nil =>
    obtain rfl := Except.ok.inj wrote
    cases member
  | cons item rest ih =>
    rcases exists_of_joined wrote member with ⟨text, here⟩ | ⟨text, later, isIn⟩
    · exact ⟨item, by simp, text, here⟩
    · obtain ⟨other, among, found⟩ := ih later isIn
      exact ⟨other, by simp [among], found⟩

theorem exists_of_writeSection {kind : Kind} {body : Outlook → Except Fault String} {value : Value}
    (normal : kind ≠ .invertedTag)
    (wrote : writeSection (body outlook) (fun view => body (outlook.push view)) value = .ok out)
    (member : c ∈ out.toList) :
    ∃ inside ∈ outlook.bodies kind value, ∃ text, body inside = .ok text ∧ c ∈ text.toList := by
  have items {items : List Value}
      (wrote : writeItems (fun view => body (outlook.push view)) items = .ok out) :
      ∃ inside ∈ items.map outlook.push, ∃ text, body inside = .ok text ∧ c ∈ text.toList := by
    obtain ⟨item, among, found⟩ := exists_of_writeItems wrote member
    exact ⟨_, List.mem_map_of_mem among, found⟩
  unfold writeSection at wrote
  unfold Outlook.bodies
  rw [if_neg normal]
  split at wrote
  · obtain rfl := Except.ok.inj wrote
    cases member
  · rw [if_neg ‹_›]
    cases value with
    | list found => exact items wrote
    | tuple found => exact items wrote
    | bool b => exact ⟨outlook, List.mem_singleton_self _, out, wrote, member⟩
    | _ => exact ⟨_, List.mem_singleton_self _, out, wrote, member⟩

theorem exists_of_writeInverted {here : Except Fault String} {value : Value}
    (wrote : writeInverted here value = .ok out) (member : c ∈ out.toList) :
    outlook ∈ outlook.bodies .invertedTag value ∧ here = .ok out := by
  unfold writeInverted at wrote
  unfold Outlook.bodies
  rw [if_pos rfl]
  split at wrote
  · rw [if_pos ‹_›]
    exact ⟨List.mem_singleton_self _, wrote⟩
  · obtain rfl := Except.ok.inj wrote
    cases member

theorem Style.exists_of_writeNode_block {opener : Token} {children : List Node} {closeStart : Nat}
    (wrote : style.writeNode inner outlook (.block opener children closeStart) = .ok out)
    (member : c ∈ out.toList) :
    ∃ value, outlook.find opener.value = .ok value ∧
      ∃ inside ∈ outlook.bodies opener.kind value, ∃ text,
        inner inside children = .ok text ∧ c ∈ text.toList := by
  obtain ⟨value, found, wrote⟩ := exists_ok_of_bind wrote
  refine ⟨value, found, ?_⟩
  split at wrote
  next inverted =>
    obtain ⟨isBody, wrote⟩ := exists_of_writeInverted wrote member
    rw [inverted]
    exact ⟨outlook, isBody, out, wrote, member⟩
  next normal =>
    exact @exists_of_writeSection _ _ _ _ (inner · children) _ normal wrote member

theorem Style.exists_of_writePartial {token : Token}
    (wrote : style.writePartial inner outlook token = .ok out) (member : c ∈ out.toList) :
    ∃ found tree inside, style.source? token.value = .ok (some found) ∧
      parseTemplate (Job.partialSource token found) style.pair = .ok tree ∧
      outlook.inPartial token.value = .ok inside ∧ inner inside tree = .ok out := by
  obtain ⟨source, there, wrote⟩ := exists_ok_of_bind wrote
  cases source with
  | none =>
    obtain rfl := Except.ok.inj wrote
    cases member
  | some found =>
    obtain ⟨tree, parsed, wrote⟩ := exists_ok_of_bind wrote
    obtain ⟨inside, entered, wrote⟩ := exists_ok_of_bind wrote
    exact ⟨found, tree, inside, there, parsed, entered, wrote⟩

theorem not_mem_written_html {found : Except Fault Value} (isMarkup : c ∈ markup)
    (wrote : (found >>= written Escaper.html.escape) = .ok out) : c ∉ out.toList := by
  obtain ⟨value, -, wrote⟩ := exists_ok_of_bind wrote
  unfold written at wrote
  split at wrote
  · obtain rfl := Except.ok.inj wrote
    exact List.not_mem_nil
  · rw [map_eq_pure_bind] at wrote
    obtain ⟨text, -, wrote⟩ := exists_ok_of_bind wrote
    obtain rfl := Except.ok.inj wrote
    exact not_mem_escapeHtml isMarkup text

/-- A tree holds a character bare, or one that the writing of its nodes takes in does. -/
def Style.Origin (style : Style) (c : Char) (outlook : Outlook) (nodes : List Node) : Prop :=
  Bares c nodes ∨ ∃ tree, style.Takes outlook nodes tree ∧ Bares c tree

theorem Style.Origin.behind {node : Node} {rest : List Node}
    (origin : style.Origin c outlook rest) : style.Origin c outlook (node :: rest) := by
  rcases origin with ⟨token, within, bare⟩ | ⟨tree, taken, bares⟩
  · exact .inl ⟨token, .tail within, bare⟩
  · exact .inr ⟨tree, .behind taken, bares⟩

theorem Style.origin_of_writeNode (escapes : style.escaper = .html) (isMarkup : c ∈ markup)
    (within : ∀ outlook nodes out, inner outlook nodes = .ok out → c ∈ out.toList →
      style.Origin c outlook nodes)
    {node : Node} (wrote : style.writeNode inner outlook node = .ok out) (member : c ∈ out.toList)
    (rest : List Node) : style.Origin c outlook (node :: rest) := by
  cases node with
  | block opener children closeStart =>
    obtain ⟨value, found, inside, isBody, text, wrote, isIn⟩ :=
      exists_of_writeNode_block wrote member
    rcases within inside children text wrote isIn with ⟨token, deep, bare⟩ | ⟨tree, taken, bares⟩
    · exact .inl ⟨token, .inside deep, bare⟩
    · exact .inr ⟨tree, .body found isBody taken, bares⟩
  | leaf token =>
    cases kind : token.kind with
    | text =>
      simp only [writeNode, writeLeaf, kind] at wrote
      obtain rfl := Except.ok.inj wrote
      exact .inl ⟨token, .head _ _, .inr ⟨kind, member⟩⟩
    | unescaped => exact .inl ⟨token, .head _ _, .inl kind⟩
    | escaped =>
      simp only [writeNode, writeLeaf, kind, escapes] at wrote
      exact absurd member (not_mem_written_html isMarkup wrote)
    | partialTag =>
      simp only [writeNode, writeLeaf, kind] at wrote
      obtain ⟨found, tree, inside, there, parsed, entered, wrote⟩ :=
        exists_of_writePartial wrote member
      rcases within inside tree out wrote member with bares | ⟨deeper, taken, bares⟩
      · exact .inr ⟨tree, .tree kind there parsed entered, bares⟩
      · exact .inr ⟨deeper, .through kind there parsed entered taken, bares⟩
    | _ =>
      simp only [writeNode, writeLeaf, kind] at wrote
      obtain rfl := Except.ok.inj wrote
      cases member

theorem Style.origin_of_write (escapes : style.escaper = .html) (isMarkup : c ∈ markup)
    {depth : Nat} {nodes : List Node} (wrote : style.write depth outlook nodes = .ok out)
    (member : c ∈ out.toList) : style.Origin c outlook nodes := by
  -- Bodies and partials are one level down, the nodes behind a node are not.
  induction depth generalizing outlook nodes out with
  | zero => contradiction
  | succ depth ih =>
    rw [write] at wrote
    induction nodes generalizing out with
    | nil =>
      obtain rfl := Except.ok.inj wrote
      cases member
    | cons node rest later =>
      rcases exists_of_joined wrote member with ⟨text, here, isIn⟩ | ⟨text, onward, isIn⟩
      · exact origin_of_writeNode escapes isMarkup (fun _ _ _ => ih) here isIn rest
      · exact (later onward isIn).behind

end Writing

theorem Engine.render_without_markup {engine : Engine} {pair : Delimiters} {tags view : Value}
    {source : String} {entries : List (Value × Value)} {s : Session} {c : Char} {depth : Nat}
    {nodes : List Node} {out : String} (isMarkup : c ∈ markup) (escapes : engine.escaper = .html)
    (ready : engine.Ready pair s) (paired : engine.pairFor tags = .ok pair)
    (data : view.IsDataView) (parsed : parseTemplate source pair = .ok nodes)
    (clean : ∀ tree,
      tree = nodes ∨ (engine.style pair entries).Takes (engine.outlook view) nodes tree →
        ∀ token, Node.Within (.leaf token) tree →
          token.kind ≠ .unescaped ∧ (token.kind = .text → c ∉ token.value.toList))
    (rendered : (engine.render depth (.str source) view (.map entries) tags s).1 = .ok out) :
    c ∉ out.toList := by
  intro member
  have notBare {tree : List Node} (isRendered : tree = nodes ∨
      (engine.style pair entries).Takes (engine.outlook view) nodes tree) : ¬ Bares c tree := by
    rintro ⟨token, within, unescaped | ⟨isText, holds⟩⟩
    · exact (clean tree isRendered token within).1 unescaped
    · exact (clean tree isRendered token within).2 isText holds
  obtain ⟨nodes', parsed', wrote⟩ := exists_parsed_of_render ready paired data rendered
  obtain rfl : nodes = nodes' := by simpa using parsed.symm.trans parsed'
  rcases Style.origin_of_write escapes isMarkup wrote member with bares | ⟨tree, taken, bares⟩
  · exact notBare (.inl rfl) bares
  · exact notBare (.inr taken) bares

theorem Style.Takes.of_leaves {style : Style} {outlook : Outlook} {tokens : List Token}
    {tree : List Node} (taken : style.Takes outlook (tokens.map .leaf) tree) :
    ∃ token ∈ tokens, token.kind = .partialTag ∧ ∃ found nodes inside,
      style.source? token.value = .ok (some found) ∧
      parseTemplate (Job.partialSource token found) style.pair = .ok nodes ∧
      (tree = nodes ∨ style.Takes inside nodes tree) := by
  induction tokens with
  | nil => cases taken
  | cons token rest ih =>
    rw [List.map_cons] at taken
    cases taken with
    | @tree _ inside _ _ _ found isPartial there parsed =>
      exact ⟨token, by simp, isPartial, found, tree, inside, there, parsed, .inl rfl⟩
    | @through _ inside _ _ nodes _ found isPartial there parsed _ deeper =>
      exact ⟨token, by simp, isPartial, found, nodes, inside, there, parsed, .inr deeper⟩
    | behind taken =>
      obtain ⟨other, among, rest⟩ := ih taken
      exact ⟨other, by simp [among], rest⟩

theorem Node.Within.mem_of_leaves {token : Token} {tokens : List Token}
    (within : Within (.leaf token) (tokens.map .leaf)) : token ∈ tokens := by
  induction tokens with
  | nil => cases within
  | cons first rest ih =>
    cases within with
    | head => exact List.mem_cons_self
    | tail within => exact List.mem_cons_of_mem _ (ih within)

theorem Engine.render_without_markup_in_partial :
    (Engine.render { cache := .keepFirst 0 } 3 (.str "{{x}}{{>p}}") (.map [(.str "x", .str "<b>")])
        (.map [(.str "p", .str "a{{x}}")]) .null { caches := [{}] }).1 =
      .ok "&lt;b&gt;a&lt;b&gt;" ∧ '<' ∉ "&lt;b&gt;a&lt;b&gt;".toList := by
  let engine : Engine := { cache := .keepFirst 0 }
  let view : Value := .map [(.str "x", .str "<b>")]
  let entries : List (Value × Value) := [(.str "p", .str "a{{x}}")]
  let outer : List Token := [⟨.escaped, "x", 0, 5, {}⟩, ⟨.partialTag, "p", 5, 11, ⟨"", 1, false⟩⟩]
  let inner : List Token := [⟨.text, "a", 0, 1, {}⟩, ⟨.escaped, "x", 1, 6, {}⟩]
  have ready : engine.Ready .standard { caches := [{}] } := .ofEmpty .standard rfl rfl (by simp)
  have data : view.IsDataView := Value.isDataView_of_isData rfl
  have parsed : parseTemplate "{{x}}{{>p}}" .standard = .ok (outer.map .leaf) := rfl
  have parsedInner : parseTemplate "a{{x}}" .standard = .ok (inner.map .leaf) := rfl
  have rendered : (engine.render 3 (.str "{{x}}{{>p}}") view (.map entries) .null
      { caches := [{}] }).1 = .ok "&lt;b&gt;a&lt;b&gt;" := by decide +kernel
  have clean : ∀ tokens ∈ [outer, inner], ∀ token ∈ tokens,
      token.kind ≠ .unescaped ∧ (token.kind = .text → '<' ∉ token.value.toList) := by decide
  have noPartial : ∀ token ∈ inner, token.kind ≠ .partialTag := by decide
  have only (tree : List Node)
      (taken : (engine.style .standard entries).Takes (engine.outlook view) (outer.map .leaf)
        tree) : tree = inner.map .leaf := by
    obtain ⟨token, member, isPartial, found, nodes, inside, there, again, taken⟩ := taken.of_leaves
    obtain rfl | rfl : token = _ ∨ token = _ := by simpa [outer] using member
    · cases isPartial
    · cases there
      obtain rfl := Except.ok.inj (parsedInner.symm.trans again)
      refine taken.resolve_right fun taken => ?_
      obtain ⟨token, member, isPartial, -⟩ := taken.of_leaves
      exact absurd isPartial (noPartial token member)
  refine ⟨rendered, Engine.render_without_markup (by decide) rfl ready rfl data parsed ?_ rendered⟩
  rintro tree (rfl | taken) token within
  · exact clean outer (by simp) token within.mem_of_leaves
  · obtain rfl := only tree taken
    exact clean inner (by simp) token within.mem_of_leaves

end Mustache
