import Mathlib.Data.List.Chain
import Mustache.Proofs.BoundName
import Mustache.Proofs.InlinePartial
import Mustache.Proofs.TagLines

set_option autoImplicit false

namespace Mustache

def partialLine (margin : List Char) (name : String) : String :=
  String.ofList margin ++ standardPartial name ++ "\n"

def IsMargin (text : List Char) : Prop :=
  ∀ c ∈ text, c = ' ' ∨ c = '\t'

structure IsPartialName (name : String) : Prop where
  nonempty : name ≠ ""
  noBlank : NoBlank name
  noBrace : '}' ∉ name.toList

/-- The partials of nested levels. Each holds the line of the next one, the last one the leaf. -/
def nestedPartials (leaf : String) : String → List (List Char × String) → List (Value × Value)
  | name, [] => [(.str name, .str leaf)]
  | name, (margin, next) :: rest =>
      (.str name, .str (partialLine margin next)) :: nestedPartials leaf next rest

def indented (margin : List Char) (text : String) : String :=
  String.ofList (joinLines (indentLines margin (cutLines text.toList)))

section Margins

variable {margin : List Char}

theorem IsMargin.isBlank (isMargin : IsMargin margin) : ∀ c ∈ margin, isBlank c = true := by
  intro c member
  rcases isMargin c member with rfl | rfl <;> decide

theorem IsMargin.not_mem (isMargin : IsMargin margin) {c : Char} (visible : c ≠ ' ' ∧ c ≠ '\t') :
    c ∉ margin := by
  intro member
  rcases isMargin c member with rfl | rfl <;> simp at visible

theorem IsMargin.append (isMargin : IsMargin margin) {more : List Char}
    (isMargin' : IsMargin more) : IsMargin (margin ++ more) :=
  List.forall_mem_append.2 ⟨isMargin, isMargin'⟩

end Margins

def NoTagBetween (c d : Char) : Prop :=
  ¬ (c = '{' ∧ d = '{')

theorem noTag_standard_iff {text : List Char} :
    NoTag .standard text ↔ text.IsChain NoTagBetween := by
  unfold NoTag
  induction text with
  | nil => simp [Delimiters.standard]
  | cons c rest ih =>
    rw [List.infix_cons_iff, not_or, ih, List.isChain_cons]
    refine and_congr ?_ Iff.rfl
    cases rest with
    | nil => simp [Delimiters.standard]
    | cons d rest => simp [Delimiters.standard, NoTagBetween, eq_comm]

section Lines

variable {margin : List Char} {name : String}

theorem IsPartialName.tagValue (isName : IsPartialName name) :
    TagValue .standard name.toList := by
  have visible : ∀ c ∈ name.toList, isBlank c = false := isName.noBlank
  refine ⟨by simpa using isName.nonempty, ⟨?_, ?_⟩, onlyAtEnd_of_not_mem isName.noBrace⟩
  · cases first : name.toList.head? with
    | none => rfl
    | some c => exact visible c (List.mem_of_mem_head? first)
  · cases last : name.toList.getLast? with
    | none => rfl
    | some c => exact visible c (List.mem_of_getLast? last)

theorem toList_partialLine (margin : List Char) (name : String) :
    (partialLine margin name).toList =
      margin ++ (tagText .standard ['>'] name.toList ++ ['\n']) := by
  simp [partialLine, toList_standardPartial]

def lineTag (margin : List Char) (name : String) : Token where
  kind := .partialTag
  value := name
  start := margin.length
  stop := margin.length + (tagText .standard ['>'] name.toList).length
  mark := ⟨String.ofList margin, 0, false⟩

theorem NoTag.append_lineFeed {text : List Char} (noTag : NoTag .standard text) :
    NoTag .standard (text ++ ['\n']) := by
  rw [noTag_standard_iff] at noTag ⊢
  rw [List.isChain_append]
  exact ⟨noTag, .singleton _, by simp [NoTagBetween]⟩

theorem readTag?_partialTag (isName : IsPartialName name) (rest : List Char) :
    readTag? .standard (tagText .standard ['>'] name.toList ++ rest) =
      some ⟨.partialTag, name.toList, (tagText .standard ['>'] name.toList).length⟩ :=
  have visible : ∀ c ∈ Delimiters.standard.closing, isBlank c = false := by
    simp [Delimiters.standard, isBlank]
  readTag?_sigil visible isName.tagValue (by decide) (by decide) (by decide) rest

def partialTagLine (isMargin : IsMargin margin) (isName : IsPartialName name) {rest : List Char}
    (noTag : NoTag .standard rest) (oneLine : '\n' ∉ rest) : TagLine .standard where
  before := margin
  tag := tagText .standard ['>'] name.toList
  kind := .partialTag
  value := name
  behind := rest
  opened := opening_prefix_tagText _ _
  read := readTag?_partialTag isName
  keepsPair := by decide
  clearBefore := onlyAtEnd_of_not_mem (isMargin.not_mem (by decide))
  clearBehind := noTag.append_lineFeed
  oneLineBefore := isMargin.not_mem (by decide)
  oneLineBehind := oneLine

theorem token_partialTagLine (isMargin : IsMargin margin) (isName : IsPartialName name)
    {rest : List Char} (noTag : NoTag .standard rest) (oneLine : '\n' ∉ rest) :
    (partialTagLine isMargin isName noTag oneLine).token = lineTag margin name := by
  unfold TagLine.token lineTag
  simp only [partialTagLine, if_true, lineMark_textPieces isMargin.isBlank]
  rfl

theorem parseTemplate_partialLine (isMargin : IsMargin margin) (isName : IsPartialName name) :
    parseTemplate (partialLine margin name) .standard = .ok [.leaf (lineTag margin name)] := by
  have noTag : NoTag .standard [] := by simp [NoTag, Delimiters.standard]
  let line := partialTagLine isMargin isName noTag (by simp)
  have text : partialLine margin name = String.ofList line.text := by
    rw [← String.toList_inj, toList_partialLine, String.toList_ofList]
    rfl
  have blank : line.IsBlank := ⟨rfl, isMargin.isBlank, by simp [line, partialTagLine]⟩
  rw [text, line.parseTemplate_of_isBlank rfl (show Kind.partialTag ≠ .closeTag by decide) blank,
    token_partialTagLine isMargin isName noTag (by simp)]

theorem indented_partialLine (isMargin : IsMargin margin) (isName : IsPartialName name)
    (outer : List Char) :
    indented outer (partialLine margin name) = partialLine (outer ++ margin) name := by
  have oneLine : '\n' ∉ margin ++ tagText .standard ['>'] name.toList := by
    have outside : '\n' ∉ margin := isMargin.not_mem (by decide)
    have inside := isName.noBlank.oneLine
    simp [tagText, Delimiters.standard, outside, inside]
  have begins : (margin ++ tagText .standard ['>'] name.toList).isEmpty = false := by
    simp [tagText, Delimiters.standard]
  have cut := cutLines_append_lineFeed oneLine []
  rw [← String.toList_inj, indented, String.toList_ofList, toList_partialLine, toList_partialLine,
    ← List.append_assoc, cut]
  simp [indentLines, cutLines, joinLines, joinWith, tagText, Delimiters.standard]

end Lines

section Leaves

variable {margin : List Char}

theorem isChain_joinLines {apart : Char → Char → Prop} (before : ∀ c, apart c '\n')
    (behind : ∀ c, apart '\n' c) {lines : List (List Char)} :
    (joinLines lines).IsChain apart ↔ ∀ line ∈ lines, line.IsChain apart := by
  induction lines with
  | nil => simp [joinLines, joinWith]
  | cons line rest ih =>
    cases rest with
    | nil => simp [joinLines, joinWith]
    | cons next rest =>
      rw [joinLines, joinWith_cons_of_ne_nil _ _ (List.cons_ne_nil _ _), ← joinLines,
        List.isChain_append, List.isChain_cons, ih, List.forall_mem_cons]
      simp [before, behind]

theorem IsMargin.isChain_append (isMargin : IsMargin margin) {line : List Char}
    (apart : line.IsChain NoTagBetween) : (margin ++ line).IsChain NoTagBetween := by
  induction margin with
  | nil => exact apart
  | cons c rest ih =>
    have noBrace : c ≠ '{' := fun same => isMargin.not_mem (c := '{') (by decide) (by simp [same])
    rw [List.cons_append, List.isChain_cons]
    refine ⟨fun d _ both => noBrace both.1, ih fun d member => isMargin d ?_⟩
    exact List.mem_cons_of_mem c member

theorem NoTag.indented {text : String} (noTag : NoTag .standard text.toList)
    (isMargin : IsMargin margin) : NoTag .standard (indented margin text).toList := by
  have before (c : Char) : NoTagBetween c '\n' := by simp [NoTagBetween]
  have behind (c : Char) : NoTagBetween '\n' c := by simp [NoTagBetween]
  rw [noTag_standard_iff, ← joinWith_cutAt '\n' text.toList, ← joinLines,
    isChain_joinLines before behind] at noTag
  rw [noTag_standard_iff, Mustache.indented, String.toList_ofList,
    isChain_joinLines before behind]
  intro line member
  obtain ⟨bare, isLine, rfl⟩ := List.mem_map.1 member
  have apart := noTag bare isLine
  split
  · exact apart
  · exact isMargin.isChain_append apart

end Leaves

theorem partialSource_of_mark {margin : List Char} (isMargin : IsMargin margin) {token : Token}
    (mark : token.mark = ⟨String.ofList margin, 0, false⟩) (source : String) :
    Job.partialSource token source = indented margin source := by
  unfold Job.partialSource
  rw [mark]
  split
  next =>
    have kept : margin.filter (fun c => decide (c = ' ' ∨ c = '\t')) = margin :=
      List.filter_eq_self.2 fun c member => decide_eq_true (isMargin c member)
    rw [indentPartial, String.toList_ofList, kept]
    rfl
  next flat =>
    obtain rfl : margin = [] := by simpa using flat
    have same (lines : List (List Char)) : indentLines [] lines = lines := by
      simp [indentLines]
    rw [indented, same, joinLines, cutLines, joinWith_cutAt, String.ofList_toList]

section Sources

variable {leaf name : String} {rest : List (List Char × String)}

theorem valueAt?_of_mem {entries : List (Value × Value)} {key value : Value}
    (distinct : entries.Pairwise fun entry later => entry.1.equals later.1 = false)
    (self : key.equals key = true) (member : (key, value) ∈ entries) :
    Value.valueAt? key entries = some value := by
  induction entries with
  | nil => cases member
  | cons entry rest ih =>
    rw [List.pairwise_cons] at distinct
    rcases List.mem_cons.1 member with rfl | later
    · rw [Value.valueAt?, if_pos self]
    · rw [Value.valueAt?, if_neg (by simp [distinct.1 _ later]), ih distinct.2 later]

theorem keys_nestedPartials (leaf name : String) (rest : List (List Char × String)) :
    (nestedPartials leaf name rest).map Prod.fst = (name :: rest.map Prod.snd).map .str := by
  induction rest generalizing name with
  | nil => rfl
  | cons level rest ih => simp [nestedPartials, ih]

theorem distinct_nestedPartials (distinct : (name :: rest.map Prod.snd).Nodup) :
    (nestedPartials leaf name rest).Pairwise
      fun entry later => entry.1.equals later.1 = false := by
  have keys := @List.pairwise_map _ _ Prod.fst (fun key later => Value.equals key later = false)
    (nestedPartials leaf name rest)
  rw [← keys, keys_nestedPartials, List.pairwise_map]
  refine distinct.imp fun other => ?_
  rw [Bool.eq_false_iff, Ne, Value.equals_str_iff]
  simpa using other

theorem mappedSource_of_mem {entries : List (Value × Value)} {source : String}
    (distinct : entries.Pairwise fun entry later => entry.1.equals later.1 = false)
    (member : (.str name, .str source) ∈ entries) :
    mappedSource entries name = .ok (some source) := by
  rw [mappedSource, valueAt?_of_mem distinct (Value.equals_str_iff.2 rfl) member]
  rfl

end Sources

section Rendering

open Mustache.Action (Yields)

variable {entries : List (Value × Value)} {job : Job} {outlook : Outlook}

theorem Job.renderPartial_yields_ok {inner : Inner} {token : Token} {found text : String}
    {nodes : List Node} {inside : Outlook} (mapped : job.partials = .map entries)
    (there : mappedSource entries token.value = .ok (some found))
    (parsed : parseTemplate (partialSource token found) job.pair = .ok nodes)
    (entered : outlook.inPartial token.value = .ok inside)
    (yields : Yields (Session.At inside)
      (inner (uncached { job with source := some (partialSource token found) }) nodes)
      (.ok text)) :
    Yields (Session.At outlook) (job.uncached.renderPartial inner token) (.ok text) := by
  have written : (job.style entries).writePartial (fun _ _ => .ok text) outlook token =
      .ok text := by
    rw [Style.writePartial_of_some there]
    change (parseTemplate (partialSource token found) job.pair >>= _) = _
    rw [parsed]
    change (outlook.inPartial token.value >>= _) = _
    rw [entered]
    rfl
  rw [← written]
  refine renderPartial_yields_of (styled_of_mapped mapped)
    fun found' nodes' inside' there' parsed' entered' => ?_
  obtain rfl : found = found' := by simpa using there.symm.trans there'
  obtain rfl : nodes = nodes' := by simpa using parsed.symm.trans parsed'
  obtain rfl : inside = inside' := by simpa using entered.symm.trans entered'
  exact yields

theorem Job.render_partial_yields {token : Token} (isPartial : token.kind = .partialTag)
    {holds : Session → Prop} {depth : Nat} {outcome : Except Fault String}
    (yields : Yields holds (job.renderPartial (render depth) token) outcome) :
    Yields holds (render (depth + 1) job [.leaf token]) outcome := by
  rw [render, renderNodes, renderNode, renderLeaf, isPartial, ← bind_pure outcome]
  refine yields.bind fun text _ => ?_
  rw [renderNodes, pure_bind, String.append_empty]
  exact .pure text

theorem Job.render_line_yields {leaf : String} (noTag : NoTag .standard leaf.toList)
    (distinct : entries.Pairwise fun entry later => entry.1.equals later.1 = false)
    (standard : job.pair = .standard) (mapped : job.partials = .map entries)
    {rest : List (List Char × String)} {margin : List Char} {name : String}
    (held : nestedPartials leaf name rest ⊆ entries) (isMargin : IsMargin margin)
    (margins : ∀ level ∈ rest, IsMargin level.1) (names : ∀ level ∈ rest, IsPartialName level.2)
    (unlimited : outlook.Unlimited) {depth : Nat} (enough : rest.length + 2 ≤ depth) :
    Yields (Session.At outlook)
      (Job.render depth job.uncached [.leaf (lineTag margin name)])
      (.ok (indented (margin ++ rest.flatMap Prod.fst) leaf)) := by
  have indents {margin : List Char} (isMargin : IsMargin margin) (name found : String) :
      partialSource (lineTag margin name) found = indented margin found :=
    partialSource_of_mark isMargin rfl found
  induction rest generalizing job margin name outlook depth with
  | nil =>
    obtain ⟨depth, rfl⟩ := Nat.exists_eq_add_of_le' enough
    obtain ⟨inside, entered, -⟩ := Outlook.exists_inPartial_of_unlimited unlimited name
    have there := mappedSource_of_mem distinct (held List.mem_cons_self)
    obtain ⟨nodes, parsed, text⟩ := parseTemplate_of_noTag (noTag.indented isMargin) none
    rw [← standard, ← indents isMargin name] at parsed
    apply render_partial_yields rfl
    refine renderPartial_yields_ok mapped there parsed entered ?_
    simp only [List.flatMap_nil, List.append_nil, render, text]
    exact .pure _
  | cons level rest ih =>
    obtain ⟨more, next⟩ := level
    rw [List.forall_mem_cons] at margins names
    obtain ⟨depth, rfl⟩ := Nat.exists_eq_add_of_le' (show 2 ≤ depth by omega)
    have enoughBelow : rest.length + 2 ≤ depth + 1 := by simpa using enough
    obtain ⟨inside, entered, -, unlimitedInside⟩ :=
      Outlook.exists_inPartial_of_unlimited unlimited name
    rw [nestedPartials, List.cons_subset] at held
    have there := mappedSource_of_mem distinct held.1
    have onward : IsMargin (margin ++ more) := isMargin.append margins.1
    have parsed := parseTemplate_partialLine onward names.1
    rw [← indented_partialLine margins.1 names.1, ← standard, ← indents isMargin name] at parsed
    apply render_partial_yields rfl
    refine renderPartial_yields_ok mapped there parsed entered ?_
    rw [List.flatMap_cons, ← List.append_assoc]
    exact ih standard mapped held.2 onward margins.2 names.2 unlimitedInside enoughBelow

end Rendering

theorem Engine.render_nestedPartials {engine : Engine} {tags : Value} {s : Session}
    {margin : List Char} {name leaf : String} {rest : List (List Char × String)}
    (unlimited : engine.maxPartialDepth = none) (paired : engine.pairFor tags = .ok .standard)
    (ready : engine.Ready .standard s)
    (margins : ∀ level ∈ (margin, name) :: rest, IsMargin level.1)
    (names : ∀ level ∈ (margin, name) :: rest, IsPartialName level.2)
    (distinct : (((margin, name) :: rest).map Prod.snd).Nodup)
    (noTag : NoTag .standard leaf.toList) (view : Value) {depth : Nat}
    (enough : rest.length + 2 ≤ depth) :
    (engine.render depth (.str (partialLine margin name)) view
      (.map (nestedPartials leaf name rest)) tags s).1 =
      .ok (indented (((margin, name) :: rest).flatMap Prod.fst) leaf) := by
  rw [List.forall_mem_cons] at margins names
  have parsed := parseTemplate_partialLine margins.1 names.1
  have begins : (engine.outlook view).Unlimited := by
    intro scope here
    obtain rfl := Option.some.inj here
    exact unlimited
  rw [@render_of_yields _ _ _ _ _ _ _ _ (fun _ => .ok _) ready paired fun nodes parsed' => ?_,
    parsed]
  · rfl
  · obtain rfl : [.leaf (lineTag margin name)] = nodes := by simpa using parsed.symm.trans parsed'
    exact Job.render_line_yields noTag (distinct_nestedPartials distinct) rfl rfl
      (List.Subset.refl _) margins.1 margins.2 names.2 begins enough

theorem Engine.render_nestedPartials_in_tabs :
    (Engine.render { cache := .keepFirst 0 } 3 (.str " {{>a}}\n") .null
      (.map [(.str "a", .str "\t{{>b}}\n"), (.str "b", .str "x\n\ny")]) .null
      { caches := [{}] }).1 = .ok " \tx\n\n \ty" := by
  have ready : Engine.Ready { cache := .keepFirst 0 } .standard { caches := [{}] } :=
    .ofEmpty .standard rfl rfl (by simp)
  have margins : ∀ level ∈ [([' '], "a"), (['\t'], "b")], IsMargin level.1 := by
    simp [IsMargin]
  have names : ∀ level ∈ [([' '], "a"), (['\t'], "b")], IsPartialName level.2 := by
    simp only [List.forall_mem_cons]
    exact ⟨⟨by decide, by decide, by decide⟩, ⟨by decide, by decide, by decide⟩, by simp⟩
  have noTag : NoTag .standard "x\n\ny".toList :=
    noTag_standard_iff.2 (by simp [NoTagBetween])
  exact Engine.render_nestedPartials rfl rfl ready margins names (by decide) noTag .null
    (Nat.le_refl 3)

end Mustache
