import Mustache.Proofs.IndentedTags
import Mustache.Proofs.ParsedTrees

set_option autoImplicit false

namespace Mustache

section Trees

variable {token : Token} {tokens : List Token} {nodes : List Node}

theorem Token.name?_of_text (isText : token.isTag = false) : token.name? = none := by
  have kind : token.kind = .text := by simpa [isTag] using isText
  simp [name?, kind, Kind.writesValue, Kind.opensBody]

theorem filterMap_name?_bareTags (tokens : List Token) :
    (bareTags tokens).filterMap Token.name? = tokens.filterMap Token.name? := by
  induction tokens with
  | nil => rfl
  | cons token rest ih =>
    by_cases isTag : token.isTag = true
    · rw [bareTags_cons_of_isTag isTag, List.filterMap_cons, List.filterMap_cons, ih]
      rfl
    · rw [bareTags_cons_of_text (by simpa [Token.isTag] using isTag), ih,
        List.filterMap_cons_none (Token.name?_of_text (Bool.eq_false_iff.2 isTag))]

theorem Nests.treeNames_eq (nests : Nests tokens nodes) :
    treeNames nodes = tokens.filterMap Token.name? := by
  induction nests with
  | nil => rfl
  | @leaf token rest nodes opens closes _ ih =>
    rw [treeNames, Node.names, ih]
    cases writes : token.kind.writesValue <;> simp [Token.name?, opens, writes]
  | @block opener close inner rest children nodes opens closes named _ _ ihInner ihRest =>
    have noName : close.name? = none := by
      simp [Token.name?, closes, Kind.writesValue, Kind.opensBody]
    have opened : opener.name? = some opener.value := by simp [Token.name?, opens]
    rw [treeNames, Node.names, ihInner, ihRest, List.filterMap_cons_some opened,
      List.filterMap_append, List.filterMap_cons_none noName, List.cons_append]

theorem treeNames_of_parse {source : String} {pair : Delimiters} {name : Option String}
    (parsed : parseTemplate source pair name = .ok nodes) :
    treeNames nodes = namesIn pair source.toList := by
  obtain ⟨⟨inForce, ended⟩, -, nests⟩ := parseTemplate_eq_ok_iff.1 parsed
  rw [nests.treeNames_eq, ← filterMap_name?_bareTags, bareTags_squash,
    bareTags_settle (readsAll_scan ended).proper, List.filterMap_filterMap]
  rfl

end Trees

/-- What of a name is looked up in a mapping: the part up to its first dot, unless that stands in
front. -/
def firstSegment (name : String) : String :=
  if isPath name then (segments name).headD "" else name

section Lookups

variable {entries entries' : List (Value × Value)} {name : String}

theorem Value.answer?_congr
    (agree : valueAt? (.str (firstSegment name)) entries =
      valueAt? (.str (firstSegment name)) entries') :
    (Value.map entries).answer? name = (Value.map entries').answer? name := by
  unfold answer?
  split
  next dotted =>
    rw [firstSegment, if_pos dotted] at agree
    cases path : segments name with
    | nil => rfl
    | cons first rest =>
      rw [path, List.headD_cons] at agree
      cases rest <;> simp [descend, hasKey, hasOwnMember, member, agree]
  next whole =>
    rw [firstSegment, if_neg whole] at agree
    simp only [hasKey, member, agree]

end Lookups

structure Outlook.OnTop (entries entries' : List (Value × Value)) (first second : Outlook) :
    Prop where
  views : ∃ front, first.views = front ++ [.map entries] ∧ second.views = front ++ [.map entries']
  scope : first.scope = second.scope

/-- A name that is not the innermost view, and under whose first segment two mappings give the
same. -/
structure ReadAlike (entries entries' : List (Value × Value)) (name : String) : Prop where
  named : name ≠ "."
  agree : Value.valueAt? (.str (firstSegment name)) entries =
    Value.valueAt? (.str (firstSegment name)) entries'

def Writer.ReadsNames (entries entries' : List (Value × Value)) (inner : Writer) : Prop :=
  ∀ (first second : Outlook) (nodes : List Node), first.OnTop entries entries' second →
    (∀ name ∈ treeNames nodes, ReadAlike entries entries' name) →
    inner first nodes = inner second nodes

section Writing

variable {entries entries' : List (Value × Value)} {first second : Outlook} {name : String}

namespace Outlook.OnTop

variable (onTop : first.OnTop entries entries' second)

include onTop

theorem push (view : Value) : (first.push view).OnTop entries entries' (second.push view) := by
  obtain ⟨front, views, views'⟩ := onTop.views
  exact ⟨⟨view :: front, congrArg (view :: ·) views, congrArg (view :: ·) views'⟩, onTop.scope⟩

theorem find (alike : ReadAlike entries entries' name) : first.find name = second.find name := by
  obtain ⟨front, views, views'⟩ := onTop.views
  rw [Outlook.find, Outlook.find, if_neg alike.named, if_neg alike.named, views, views',
    resolve_append_congr (Value.answer?_congr alike.agree) front]

theorem inPartial (name : String) :
    (∃ fault, first.inPartial name = .error fault ∧ second.inPartial name = .error fault) ∨
      ∃ inside inside', first.inPartial name = .ok inside ∧
        second.inPartial name = .ok inside' ∧ inside.OnTop entries entries' inside' := by
  obtain ⟨views, scope⟩ := first
  obtain ⟨views', scope'⟩ := second
  obtain ⟨frames, same⟩ := onTop
  obtain rfl : scope = scope' := same
  cases scope with
  | none => exact .inr ⟨_, _, rfl, rfl, frames, rfl⟩
  | some scope =>
    cases checked : scope.check name with
    | error fault => simp [Outlook.inPartial, checked]
    | ok _ =>
      refine .inr ⟨⟨views, some (scope.child name)⟩, ⟨views', some (scope.child name)⟩, ?_, ?_,
        frames, rfl⟩ <;> simp [Outlook.inPartial, checked]

end Outlook.OnTop

def Style.PartialsAlike (style : Style) (entries entries' : List (Value × Value)) : Prop :=
  ∀ (token : Token) (found : String) (nodes : List Node),
    style.source? token.value = .ok (some found) →
    parseTemplate (Job.partialSource token found) style.pair = .ok nodes →
    ∀ name ∈ treeNames nodes, ReadAlike entries entries' name

namespace Style

variable {style : Style} {inner : Writer} (onTop : first.OnTop entries entries' second)
  (reads : inner.ReadsNames entries entries') (alike : style.PartialsAlike entries entries')

include onTop reads alike

theorem writePartial_congr (token : Token) :
    style.writePartial inner first token = style.writePartial inner second token := by
  cases there : style.source? token.value with
  | error fault =>
    simp only [writePartial, there]
    rfl
  | ok source =>
    cases source with
    | none => rw [writePartial_of_none there, writePartial_of_none there]
    | some found =>
      rw [writePartial_of_some there, writePartial_of_some there]
      cases parsed : parseTemplate (Job.partialSource token found) style.pair with
      | error fault => rfl
      | ok nodes =>
        change (first.inPartial token.value >>= _) = (second.inPartial token.value >>= _)
        rcases onTop.inPartial token.value with
          ⟨fault, refused, refused'⟩ | ⟨_, _, entered, entered', inside⟩
        · rw [refused, refused']
        · rw [entered, entered']
          exact reads _ _ nodes inside (alike token found nodes there parsed)

theorem writeLeaf_congr {token : Token}
    (named : ∀ name ∈ (Node.leaf token).names, ReadAlike entries entries' name) :
    style.writeLeaf inner first token = style.writeLeaf inner second token := by
  have found (writes : token.kind.writesValue = true) :
      first.find token.value = second.find token.value :=
    onTop.find (named _ (by simp [Node.names, writes]))
  unfold writeLeaf
  cases kind : token.kind with
  | escaped | unescaped =>
    simp only
    rw [found (by rw [kind]; rfl)]
  | partialTag => exact writePartial_congr onTop reads alike token
  | _ => rfl

theorem writeNode_congr {node : Node}
    (named : ∀ name ∈ node.names, ReadAlike entries entries' name) :
    style.writeNode inner first node = style.writeNode inner second node := by
  cases node with
  | leaf token => exact writeLeaf_congr onTop reads alike named
  | block opener children closeStart =>
    rw [Node.names, List.forall_mem_cons] at named
    have body := reads first second children onTop named.2
    have pushed (view : Value) := reads _ _ children (onTop.push view) named.2
    simp only [writeNode, onTop.find named.1, body, pushed]

theorem writeNodes_congr {nodes : List Node}
    (named : ∀ name ∈ treeNames nodes, ReadAlike entries entries' name) :
    style.writeNodes inner first nodes = style.writeNodes inner second nodes := by
  induction nodes with
  | nil => rfl
  | cons node rest ih =>
    rw [treeNames, List.forall_mem_append] at named
    rw [writeNodes, writeNodes, writeNode_congr onTop reads alike named.1, ih named.2]

end Style

theorem Style.write_readsNames {style : Style} (alike : style.PartialsAlike entries entries')
    (depth : Nat) : (style.write depth).ReadsNames entries entries' := by
  induction depth with
  | zero => exact fun _ _ _ _ _ => rfl
  | succ depth ih =>
    exact fun first second nodes onTop named => writeNodes_congr onTop ih alike named

end Writing

def textsOf (source : String) (partials : List (Value × Value)) : List String :=
  source :: partials.filterMap fun entry =>
    match entry.2 with
    | .str text => some text
    | _ => none

/-- The variables and sections that the template and its partials mention. -/
def mentioned (source : String) (partials : List (Value × Value)) : List String :=
  (textsOf source partials).flatMap fun text => namesIn .standard text.toList

/-- Two mappings give the same under a part of each name. -/
def AgreeUnder (part : String → String) (entries entries' : List (Value × Value))
    (names : List String) : Prop :=
  ∀ name ∈ names, Value.valueAt? (.str (part name)) entries =
    Value.valueAt? (.str (part name)) entries'

section Texts

variable {entries entries' partials : List (Value × Value)} {source name found : String}

theorem mem_textsOf_of_mappedSource (there : mappedSource partials name = .ok (some found)) :
    found ∈ textsOf source partials := by
  unfold mappedSource at there
  cases known : Value.valueAt? (.str name) partials with
  | none => simp [known] at there
  | some value =>
    obtain ⟨entry, member, rfl⟩ := Value.mem_of_valueAt? known
    rw [known, Option.getD_some] at there
    refine List.mem_cons_of_mem source (List.mem_filterMap.2 ⟨entry, member, ?_⟩)
    split at there
    next => cases there
    next text isText =>
      obtain rfl : text = found := by simpa using there
      rw [isText]
    next => cases there

section Alike

variable (oneLine : ∀ text ∈ textsOf source partials, OneLineTags .standard text.toList)
  (noDot : "." ∉ mentioned source partials)
  (agree : AgreeUnder firstSegment entries entries' (mentioned source partials))

include noDot agree

theorem readAlike_of_mentioned {text : String} (isText : text ∈ textsOf source partials) :
    ∀ name ∈ namesIn .standard text.toList, ReadAlike entries entries' name := by
  intro name member
  have inside : name ∈ mentioned source partials := List.mem_flatMap.2 ⟨text, isText, member⟩
  refine ⟨?_, agree name inside⟩
  rintro rfl
  exact noDot inside

include oneLine

theorem Engine.partialsAlike (engine : Engine) :
    (engine.style .standard partials).PartialsAlike entries entries' := by
  intro token found nodes there parsed name member
  have isText : found ∈ textsOf source partials := mem_textsOf_of_mappedSource there
  obtain ⟨⟨inForce, complete⟩, -, -⟩ := parseTemplate_eq_ok_iff.1 parsed
  rw [treeNames_of_parse parsed] at member
  exact readAlike_of_mentioned noDot agree isText name
    (namesIn_partialSource_subset (by decide) (oneLine found isText) complete member)

end Alike

end Texts

theorem Engine.render_of_agreeUnder {engine : Engine} {tags : Value} {s t : Session}
    {entries entries' partials : List (Value × Value)} {source : String}
    (paired : engine.pairFor tags = .ok .standard) (ready : engine.Ready .standard s)
    (ready' : engine.Ready .standard t)
    (oneLine : ∀ text ∈ textsOf source partials, OneLineTags .standard text.toList)
    (noDot : "." ∉ mentioned source partials)
    (data : ∀ entry ∈ entries, entry.2.isData = true)
    (data' : ∀ entry ∈ entries', entry.2.isData = true)
    (agree : AgreeUnder firstSegment entries entries' (mentioned source partials)) (depth : Nat) :
    (engine.render depth (.str source) (.map entries) (.map partials) tags s).1 =
      (engine.render depth (.str source) (.map entries') (.map partials) tags t).1 := by
  have isView {entries : List (Value × Value)} (data : ∀ entry ∈ entries, entry.2.isData = true) :
      (Value.map entries).IsDataView :=
    Value.isDataView_of_isData (Value.entriesData_iff.2 data)
  rw [render_of_data ready paired (isView data), render_of_data ready' paired (isView data')]
  cases parsed : parseTemplate source .standard with
  | error fault => rfl
  | ok nodes =>
    have alike := partialsAlike oneLine noDot agree engine
    refine Style.write_readsNames alike depth _ _ nodes ⟨⟨[], rfl, rfl⟩, rfl⟩ ?_
    rw [treeNames_of_parse parsed]
    exact readAlike_of_mentioned noDot agree List.mem_cons_self

theorem Engine.render_of_agreeUnder_in_indented_partial :
    let engine : Engine := { cache := .keepFirst 0 }
    let fresh : Session := { caches := [{}] }
    let source := "{{#a}}<\n {{>p}}\n>{{/a}}"
    let partials := [(Value.str "p", Value.str "{{#b.c}}\nx\n{{/b.c}}\ny")]
    let deep := Value.map [(.str "c", .bool true)]
    let entries := [(Value.str "a", Value.bool true), (.str "b", deep), (.str "d", .str "e")]
    let entries' := [(Value.str "b", deep), (.str "a", .bool true), (.str "c", .null)]
    mentioned source partials = ["a", "b.c"] ∧
      (engine.render 4 (.str source) (.map entries) (.map partials) .null fresh).1.toOption =
        some "<\n x\n y>" ∧
      (engine.render 4 (.str source) (.map entries) (.map partials) .null fresh).1 =
        (engine.render 4 (.str source) (.map entries') (.map partials) .null fresh).1 := by
  intro engine fresh source partials deep entries entries'
  have ready : engine.Ready .standard fresh := .ofEmpty .standard rfl rfl (by simp [fresh])
  have named : mentioned source partials = ["a", "b.c"] := by decide +kernel
  have oneLine : ∀ text ∈ textsOf source partials, OneLineTags .standard text.toList := by
    decide +kernel
  have noDot : "." ∉ mentioned source partials := by
    rw [named]
    decide
  have data : ∀ entry ∈ entries, entry.2.isData = true := by decide
  have data' : ∀ entry ∈ entries', entry.2.isData = true := by decide
  have agree : AgreeUnder firstSegment entries entries' (mentioned source partials) := by
    have segment : firstSegment "a" = "a" ∧ firstSegment "b.c" = "b" := by decide
    simp [AgreeUnder, named, segment, entries, entries', Value.valueAt?, Value.equals_str_iff]
  exact ⟨named, by decide +kernel,
    Engine.render_of_agreeUnder rfl ready ready oneLine noDot data data' agree 4⟩

/-- The part of a name before its first dot whenever a dot stands behind its first character, even
if the name begins with another one. -/
def upToDot (name : String) : String :=
  if '.' ∈ name.toList.tail then (segments name).headD "" else name

/-- A name that begins with a dot is looked up whole, whatever dots follow: it is not enough that
mappings agree under what stands before the first one. -/
theorem Engine.render_of_dot_in_front :
    let engine : Engine := { cache := .keepFirst 0 }
    let fresh : Session := { caches := [{}] }
    let source := "{{#.a.b}}x{{/.a.b}}"
    let entries := [(Value.str ".a.b", Value.bool true)]
    (∀ text ∈ textsOf source [], OneLineTags .standard text.toList) ∧
      "." ∉ mentioned source [] ∧ (∀ entry ∈ entries, entry.2.isData = true) ∧
      AgreeUnder upToDot entries [] (mentioned source []) ∧
      (engine.render 2 (.str source) (.map entries) (.map []) .null fresh).1.toOption = some "x" ∧
      (engine.render 2 (.str source) (.map []) (.map []) .null fresh).1.toOption = some "" := by
  intro engine fresh source entries
  have named : mentioned source [] = [".a.b"] := by decide +kernel
  have noDot : "." ∉ mentioned source [] := by
    rw [named]
    decide
  have agree : AgreeUnder upToDot entries [] (mentioned source []) := by
    have segment : upToDot ".a.b" = "" := by decide
    simp [AgreeUnder, named, segment, entries, Value.valueAt?, Value.equals_str_iff]
  exact ⟨by decide +kernel, noDot, by decide, agree, by decide +kernel, by decide +kernel⟩

end Mustache
