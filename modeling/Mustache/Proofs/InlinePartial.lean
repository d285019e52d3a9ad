import Mustache.Proofs.Concatenation
import Mustache.Proofs.Visible

set_option autoImplicit false

namespace Mustache

section TagLength

variable {pair : Delimiters} {value rest : List Char}

theorem drop_blankRun (text : List Char) :
    text.drop (Pattern.blankRun text) = text.dropWhile isBlank := by
  induction text with
  | nil => rfl
  | cons c rest ih =>
    unfold Pattern.blankRun at ih ⊢
    cases blank : isBlank c <;> simp [blank, ih]

theorem visible_of_take_drop_blankRun {text : List Char} {n : Nat} {c : Char}
    (same : ((text.drop (Pattern.blankRun text)).take n).head? = some c) : isBlank c = false := by
  have stops := List.head?_dropWhile_not isBlank text
  rw [drop_blankRun] at same
  cases left : text.dropWhile isBlank with
  | nil => simp [left] at same
  | cons d more =>
    cases n with
    | zero => cases same
    | succ n =>
      obtain rfl : d = c := by simpa [left] using same
      simpa [left] using stops

theorem length_of_readTag?_value {c : Char} {tag : Tag}
    (unblank : pair.Unblank) (isSigil : c ∈ sigils) (notEquals : c ≠ '=') (notBrace : c ≠ '{')
    (read : readTag? pair (tagText pair [c] value ++ rest) = some tag) (same : tag.value = value) :
    tag.length = (tagText pair [c] value).length := by
  have visible := unblank.2
  have marked : tagSigil pair (tagText pair [c] value ++ rest) =
      ([c], ⟨pair.opening.length + 1, value ++ pair.closing ++ rest⟩) := by
    have sigil := tagSigil_sigil pair isSigil (value ++ pair.closing ++ rest)
    simpa [tagText] using sigil
  rw [readTag?_eq_map, Option.map_eq_some_iff] at read
  obtain ⟨n, closed, rfl⟩ := read
  simp only [tagBody, marked, readValue_plain pair _ (show [c] ≠ ['='] by simpa)
    (show [c] ≠ ['{'] by simpa)] at same closed ⊢
  have begins : ∀ d, (value ++ pair.closing ++ rest).head? = some d → isBlank d = false := by
    cases value with
    | nil =>
      obtain ⟨first, closing, closes⟩ := List.exists_cons_of_ne_nil pair.closing_ne_nil
      rw [closes] at visible ⊢
      intro d head
      exact Option.some.inj head ▸ visible first List.mem_cons_self
    | cons d value =>
      intro e head
      obtain rfl := Option.some.inj head
      exact visible_of_take_drop_blankRun (congrArg List.head? same)
  rw [Cursor.skip_blanks begins] at same closed ⊢
  -- As many characters are passed over as the value has.
  have reach := pair.closePattern.distance_le (value ++ pair.closing ++ rest)
  have size : pair.closePattern.distance (value ++ pair.closing ++ rest) = value.length := by
    have taken := congrArg List.length same
    simp only [Cursor.takeUntil, List.length_take] at taken
    omega
  simp only [Cursor.takeUntil, Cursor.advance, size] at closed ⊢
  rw [List.append_assoc, List.drop_left] at closed
  rw [closePattern_closing visible] at closed
  obtain rfl := Option.some.inj closed
  simp [tagText]
  omega

end TagLength

inductive Inlined (tag : Token) (body : List Node) : List Node → List Node → Prop
  | here (rest : List Node) : Inlined tag body (.leaf tag :: rest) (body ++ rest)
  | later (node : Node) {rest rest' : List Node} :
      Inlined tag body rest rest' → Inlined tag body (node :: rest) (node :: rest')
  | inside (opener : Token) {children children' : List Node} (closeStart : Nat)
      (rest : List Node) : Inlined tag body children children' →
      Inlined tag body (.block opener children closeStart :: rest)
        (.block opener children' closeStart :: rest)

theorem Nests.inlined {tokens front back part : List Token} {nodes body : List Node} {tag : Token}
    (nests : Nests tokens nodes) (split : tokens = front ++ tag :: back)
    (opens : tag.kind.opensBody = false) (closes : tag.kind ≠ .closeTag)
    (partNests : Nests part body) :
    ∃ nodes', Nests (front ++ (part ++ back)) nodes' ∧ Inlined tag body nodes nodes' := by
  induction nests generalizing front back with
  | nil => simp at split
  | @leaf token rest nodes opensToken closesToken nested ih =>
    cases front with
    | nil =>
      obtain ⟨rfl, rfl⟩ := List.cons.inj split
      exact ⟨_, partNests.append nested, .here _⟩
    | cons first front =>
      obtain ⟨rfl, rfl⟩ := List.cons.inj split
      obtain ⟨nodes', nests', inlined⟩ := ih rfl
      exact ⟨_, .leaf opensToken closesToken nests', .later _ inlined⟩
  | @block opener close inner rest children nodes opensOpener closesClose named nestsInner nestsRest
      ihInner ihRest =>
    cases front with
    | nil =>
      obtain ⟨rfl, -⟩ := List.cons.inj split
      simp [opens] at opensOpener
    | cons first front =>
      obtain ⟨rfl, onward⟩ := List.cons.inj split
      rcases List.append_eq_append_iff.1 onward with ⟨ahead, rfl, after⟩ | ⟨ahead, rfl, after⟩
      · -- The leaf stands behind the body of the section.
        cases ahead with
        | nil =>
          obtain ⟨rfl, -⟩ := List.cons.inj after
          contradiction
        | cons other ahead =>
          obtain ⟨rfl, behind⟩ := List.cons.inj after
          obtain ⟨nodes', nests', inlined⟩ := ihRest behind
          refine ⟨_, ?_, .later _ inlined⟩
          simpa using Nests.block opensOpener closesClose named nestsInner nests'
      · cases ahead with
        | nil =>
          obtain ⟨rfl, -⟩ := List.cons.inj after
          contradiction
        | cons other ahead =>
          obtain ⟨rfl, rfl⟩ := List.cons.inj after
          obtain ⟨children', nests', inlined⟩ := ihInner rfl
          refine ⟨_, ?_, .inside _ _ _ inlined⟩
          simpa using Nests.block opensOpener closesClose named nests' nestsRest

section Writing

variable {style : Style} {tag : Token} {source : String} {nodes : List Node}

/-- A partial tag whose partial is written as other nodes are, in any outlook without a limit. -/
structure Style.Replaces (style : Style) (tag : Token) (body : List Node) : Prop where
  isPartial : tag.kind = .partialTag
  written : ∀ depth (outlook : Outlook), outlook.Unlimited →
    Deepens (style.writePartial (style.write depth) outlook tag)
      (style.write (depth + 1) outlook body)

theorem Style.replaces_of_parseTemplate (isPartial : tag.kind = .partialTag)
    (there : style.source? tag.value = .ok (some source))
    (asItIs : Job.partialSource tag source = source)
    (parsed : parseTemplate source style.pair = .ok nodes) {marks : LineMark → LineMark}
    (ignores : style.Ignores marks nodes) : style.Replaces tag (spelled marks nodes) := by
  refine ⟨isPartial, fun depth outlook unlimited => ?_⟩
  obtain ⟨inside, entered, views, unlimitedInside⟩ :=
    Outlook.exists_inPartial_of_unlimited unlimited tag.value
  have similar : inside.Similar outlook := ⟨views, .inr ⟨unlimitedInside, unlimited⟩⟩
  rw [style.writePartial_of_some there, asItIs, parsed]
  change Deepens (outlook.inPartial tag.value >>= _) _
  rw [entered, style.write_spelled _ _ ignores]
  exact style.write_deepens (Nat.le_succ depth) inside outlook nodes similar

theorem Inlined.write_deepens {body before after : List Node} (replaces : style.Replaces tag body)
    (inlined : Inlined tag body before after) (depth : Nat) {outlook : Outlook}
    (unlimited : outlook.Unlimited) :
    Deepens (style.write depth outlook before) (style.write depth outlook after) := by
  -- A replacement inside of a section is one level down, one behind a node is not.
  induction depth generalizing outlook before after with
  | zero => exact .refl _
  | succ depth ih =>
    change Deepens (style.writeNodes _ outlook before) (style.writeNodes _ outlook after)
    induction inlined with
    | here rest =>
      rw [Style.writeNodes, Style.writeNodes_append]
      refine Deepens.joined ?_ (.refl _)
      have written := replaces.written depth outlook unlimited
      simp only [Style.writeNode, Style.writeLeaf, replaces.isPartial]
      exact written
    | later node inlined later => exact (Deepens.refl _).joined later
    | @inside opener children children' closeStart rest inlined _ =>
      refine Deepens.joined ?_ (.refl _)
      refine .bind (.refl _) fun value => ?_
      have body := ih inlined unlimited
      split
      · exact writeInverted_deepens body value
      · exact writeSection_deepens body
          (fun view => ih inlined (show (outlook.push view).Unlimited from unlimited)) value

end Writing

def KeepsPair (pair : Delimiters) (text : List Char) : Prop :=
  ∀ tag ∈ (scan pair text).pieces.filterMap Piece.bareTag?, tag.kind ≠ .delimiterTag

instance (pair : Delimiters) (text : List Char) : Decidable (KeepsPair pair text) :=
  inferInstanceAs (Decidable (∀ tag ∈ (scan pair text).pieces.filterMap Piece.bareTag?,
    tag.kind ≠ .delimiterTag))

section Scans

variable {first second text : List Char} {inForce : Delimiters}

theorem Delimiters.standard_clearOf (ends : text.getLast? ≠ some '{') : standard.ClearOf text := by
  rintro front back split begins goesOn ⟨before, rfl⟩
  obtain ⟨c, front, rfl⟩ := List.exists_cons_of_ne_nil begins
  obtain ⟨d, back, rfl⟩ := List.exists_cons_of_ne_nil goesOn
  -- The opening delimiter is two braces, so what begins in the text is the first of them.
  obtain ⟨rfl, rest⟩ := List.cons.inj split
  cases front with
  | nil => simp at ends
  | cons e front =>
    have size := congrArg List.length rest
    simp at size

theorem scan_standard_append (complete : (scan .standard first).ending = .complete inForce)
    (keeps : KeepsPair .standard first) (ends : first.getLast? ≠ some '{') (second : List Char) :
    scan .standard (first ++ second) =
      ((scan .standard second).moved first.length).prependAll (scan .standard first).pieces := by
  obtain rfl : inForce = .standard := (readsAll_scan complete).pair_eq keeps
  refine @scan_append_of_clear (· = .standard) _ _ _ complete rfl ?_ ?_ ?_ second
  · intro from' to' piece member step standard
    rw [← standard]
    exact step.pair_eq fun tag isTag => keeps tag (List.mem_filterMap.2 ⟨piece, member, isTag⟩)
  · rintro pair rfl
    decide
  · rintro pair rfl
    exact Delimiters.standard_clearOf ends

theorem exists_readTag_of_mem {kind : Kind} {value : String} {stop : Nat} {inForce' : Delimiters}
    (complete : (scan .standard (first ++ second)).ending = .complete inForce)
    (keeps : KeepsPair .standard first)
    (member : .tag kind value first.length stop inForce' ∈
      (scan .standard (first ++ second)).pieces) :
    (scan .standard first).ending = .complete .standard ∧
      Delimiters.standard.opening.isPrefixOf second = true ∧
      ∃ tag, readTag? .standard second = some tag ∧ tag.kind = kind ∧
        String.ofList tag.value = value := by
  have run := readsAll_scan complete
  obtain ⟨before, after, split⟩ := List.append_of_mem member
  rw [split] at run
  obtain ⟨middle, toTag, fromTag⟩ := readsAll_append.1 run
  obtain ⟨next, step, -⟩ := readsAll_cons.1 fromTag
  obtain ⟨starts, -⟩ := step.offsets
  replace starts : first.length = middle.offset := starts
  have rest := toTag.offsets.2.2
  simp only [Nat.sub_zero, ← starts, List.drop_left] at rest
  have scanned := scan_of_reach toTag starts.symm
  have standard : middle.pair = .standard := by
    refine toTag.pair_eq ?_
    unfold KeepsPair at keeps
    rwa [scanned] at keeps
  refine ⟨by rw [scanned, standard], ?_⟩
  cases step with
  | tag opened read after =>
    cases standard
    cases rest
    exact ⟨opened, _, read, rfl, rfl⟩

theorem scan_of_partialTag {name : String} {stop : Nat} {inForce' : Delimiters}
    (complete : (scan .standard
      (first ++ (tagText .standard ['>'] name.toList ++ second))).ending = .complete inForce)
    (keeps : KeepsPair .standard first) (ends : first.getLast? ≠ some '{')
    (member : .tag .partialTag name first.length stop inForce' ∈
      (scan .standard (first ++ (tagText .standard ['>'] name.toList ++ second))).pieces) :
    (scan .standard first).ending = .complete .standard ∧
      scan .standard (first ++ (tagText .standard ['>'] name.toList ++ second)) =
        ((((scan .standard second).moved (tagText .standard ['>'] name.toList).length).prepend
          (.tag .partialTag name 0 (tagText .standard ['>'] name.toList).length .standard)).moved
            first.length).prependAll (scan .standard first).pieces := by
  obtain ⟨alone, opened, tag, read, kind, value⟩ := exists_readTag_of_mem complete keeps member
  have same : tag.value = name.toList := by rw [← value, String.toList_ofList]
  have size := length_of_readTag?_value (by decide) (by decide) (by decide) (by decide) read same
  have notDelimiter : tag.pairAfter .standard = .ok .standard := by
    simp [Tag.pairAfter, kind]
  have moved := scanFrom_add .standard 0 0 (tagText .standard ['>'] name.toList).length second
  rw [Nat.zero_add] at moved
  have scanned := scanFrom_of_readTag? 0 opened read
  rw [notDelimiter] at scanned
  simp only [size, List.drop_left, Nat.zero_add, moved, Tag.piece, kind, value] at scanned
  refine ⟨alone, ?_⟩
  rw [scan_standard_append alone keeps ends]
  simp only [scan, scanned]

end Scans

theorem ignores_of_visible {style : Style} {source : String} {pair : Delimiters}
    {name : Option String} {nodes : List Node}
    (parsed : parseTemplate source pair name = .ok nodes)
    (visible : ∀ piece ∈ (scan pair source.toList).pieces, piece.Visible)
    (oneLine : ∀ name found, style.source? name = .ok (some found) → '\n' ∉ found.toList) :
    style.Ignores unmarked nodes := by
  intro token within isPartial found there
  have plain := plain_of_within parsed visible within (by simp [Token.isTag, isPartial])
  have noMark : (token.unplaced unmarked).mark.Plain := fun indented => absurd rfl indented
  rw [partialSource_of_oneLine plain (oneLine _ _ there),
    partialSource_of_oneLine noMark (oneLine _ _ there)]

def NoBlank (text : String) : Prop :=
  ∀ c ∈ text.toList, isBlank c = false

instance (text : String) : Decidable (NoBlank text) :=
  List.decidableBAll _ text.toList

theorem NoBlank.oneLine {text : String} (noBlank : NoBlank text) : '\n' ∉ text.toList := by
  intro member
  have visible := noBlank '\n' member
  rw [isBlank_lineFeed] at visible
  contradiction

theorem NoBlank.append {first second : String} (noBlank : NoBlank first)
    (noBlank' : NoBlank second) : NoBlank (first ++ second) := by
  unfold NoBlank
  rw [String.toList_append, List.forall_mem_append]
  exact ⟨noBlank, noBlank'⟩

theorem NoBlank.visible {source : String} {pair : Delimiters} {name : Option String}
    {nodes : List Node} (noBlank : NoBlank source)
    (parsed : parseTemplate source pair name = .ok nodes) :
    ∀ piece ∈ (scan pair source.toList).pieces, piece.Visible := by
  obtain ⟨⟨inForce, complete⟩, -⟩ := parseTemplate_eq_ok_iff.1 parsed
  exact (readsAll_scan complete).visible noBlank

theorem noBlank_of_mappedSource {entries : List (Value × Value)}
    (noBlanks : ∀ entry ∈ entries, ∀ text, entry.2 = .str text → NoBlank text) {name found : String}
    (there : mappedSource entries name = .ok (some found)) : NoBlank found := by
  unfold mappedSource at there
  cases known : Value.valueAt? (.str name) entries with
  | none =>
    rw [known] at there
    cases there
  | some value =>
    obtain ⟨entry, member, rfl⟩ := Value.mem_of_valueAt? known
    rw [known, Option.getD_some] at there
    split at there
    next => cases there
    next source isText =>
      cases there
      exact noBlanks entry member found isText
    next => cases there

def standardPartial (name : String) : String :=
  "\x7b\x7b>" ++ name ++ "\x7d\x7d"

theorem toList_standardPartial (name : String) :
    (standardPartial name).toList = tagText .standard ['>'] name.toList := by
  simp [standardPartial, tagText, Delimiters.standard]

section Trees

variable {first second body name : String} {before within : List Node}

theorem exists_inlined {stop : Nat} {inForce : Delimiters} (noBlankFirst : NoBlank first)
    (noBlankBody : NoBlank body) (noBlankSecond : NoBlank second)
    (keeps : KeepsPair .standard first.toList) (keepsBody : KeepsPair .standard body.toList)
    (ends : first.toList.getLast? ≠ some '{') (endsBody : body.toList.getLast? ≠ some '{')
    (isPartial : .tag .partialTag name first.length stop inForce ∈
      (scan .standard (first ++ standardPartial name ++ second).toList).pieces)
    (parsed : parseTemplate (first ++ standardPartial name ++ second) .standard = .ok before)
    (parsedBody : parseTemplate body .standard = .ok within) :
    (∀ piece ∈ (scan .standard (first ++ standardPartial name ++ second).toList).pieces,
        piece.Visible) ∧
      ∃ after, parseTemplate (first ++ body ++ second) .standard = .ok after ∧
        Inlined { kind := .partialTag, value := name, start := 0, stop := 0 }
          (spelled unmarked within) (spelled unmarked before) (spelled unmarked after) := by
  have text : (first ++ standardPartial name ++ second).toList =
      first.toList ++ (tagText .standard ['>'] name.toList ++ second.toList) := by
    simp [toList_standardPartial]
  obtain ⟨⟨last, complete⟩, -⟩ := parseTemplate_eq_ok_iff.1 parsed
  obtain ⟨⟨lastBody, completeBody⟩, -⟩ := parseTemplate_eq_ok_iff.1 parsedBody
  rw [← String.length_toList] at isPartial
  have spelledBefore := spelled_of_parseTemplate parsed
  rw [text] at complete isPartial spelledBefore ⊢
  obtain ⟨alone, scanned⟩ := scan_of_partialTag complete keeps ends isPartial
  rw [scanned] at complete spelledBefore ⊢
  have completeSecond : (scan .standard second.toList).ending = .complete last := complete
  have visibleFirst := (readsAll_scan alone).visible noBlankFirst
  have visibleBody := (readsAll_scan completeBody).visible noBlankBody
  have visibleSecond := (readsAll_scan completeSecond).visible noBlankSecond
  have visible := @forall_visible_prependAll _ _ first.toList.length visibleFirst
    (@forall_visible_prepend _ (tagText .standard ['>'] name.toList).length
      (.tag .partialTag name 0 (tagText .standard ['>'] name.toList).length .standard) trivial
      visibleSecond)
  refine ⟨visible, ?_⟩
  have nests := spelledBefore visible
  rw [letters_prependAll, Scan.prepend, List.map_cons, Scan.moved, map_letter_moved] at nests
  obtain ⟨after, nestsAfter, inlined⟩ := nests.inlined rfl rfl (by simp [Piece.letter])
    (spelled_of_parseTemplate parsedBody visibleBody)
  have textAfter : (first ++ body ++ second).toList =
      first.toList ++ (body.toList ++ second.toList) := by simp
  have scannedAfter := scan_standard_append alone keeps ends (body.toList ++ second.toList)
  rw [scan_standard_append completeBody keepsBody endsBody, ← textAfter] at scannedAfter
  have noBlank := (noBlankFirst.append noBlankBody).append noBlankSecond
  have completeAfter : (scan .standard (first ++ body ++ second).toList).ending =
      .complete last := scannedAfter ▸ completeSecond
  have visibleAfter := (readsAll_scan completeAfter).visible noBlank
  have letters := congrArg (fun scan => scan.pieces.map Piece.letter) scannedAfter
  simp only [letters_prependAll] at letters
  rw [← letters] at nestsAfter
  obtain ⟨nodes, parsedAfter, rfl⟩ := parseTemplate_of_letters completeAfter visibleAfter nestsAfter
  exact ⟨nodes, parsedAfter, inlined⟩

end Trees

theorem render_inlined {first second body name : String} {engine : Engine} {tags view : Value}
    {entries : List (Value × Value)} {s t : Session} {stop : Nat} {inForce : Delimiters}
    (unlimited : engine.maxPartialDepth = none) (paired : engine.pairFor tags = .ok .standard)
    (data : view.IsDataView) (ready : engine.Ready .standard s) (ready' : engine.Ready .standard t)
    (noBlankFirst : NoBlank first) (noBlankSecond : NoBlank second)
    (noBlanks : ∀ entry ∈ entries, ∀ text, entry.2 = .str text → NoBlank text)
    (keeps : KeepsPair .standard first.toList) (keepsBody : KeepsPair .standard body.toList)
    (ends : first.toList.getLast? ≠ some '{') (endsBody : body.toList.getLast? ≠ some '{')
    (parses : ∃ nodes, parseTemplate body .standard = .ok nodes)
    (there : Value.valueAt? (.str name) entries = some (.str body))
    (isPartial : .tag .partialTag name first.length stop inForce ∈
      (scan .standard (first ++ standardPartial name ++ second).toList).pieces)
    {depth : Nat} {out : String}
    (rendered : (engine.render depth (.str (first ++ standardPartial name ++ second)) view
      (.map entries) tags s).1 = .ok out) :
    ∀ deeper, depth ≤ deeper →
      (engine.render deeper (.str (first ++ body ++ second)) view (.map entries) tags t).1 =
        .ok out := by
  intro deeper further
  obtain ⟨within, parsedBody⟩ := parses
  obtain ⟨before, parsed, wrote⟩ := Engine.exists_parsed_of_render ready paired data rendered
  have source : mappedSource entries name = .ok (some body) := by
    rw [mappedSource, there]
    rfl
  have noBlankBody := noBlank_of_mappedSource noBlanks source
  obtain ⟨visible, after, parsedAfter, inlined⟩ := exists_inlined noBlankFirst noBlankBody
    noBlankSecond keeps keepsBody ends endsBody isPartial parsed parsedBody
  have oneLine : ∀ name found, (engine.style .standard entries).source? name = .ok (some found) →
      '\n' ∉ found.toList :=
    fun name found known => (noBlank_of_mappedSource noBlanks known).oneLine
  have noBlank := (noBlankFirst.append noBlankBody).append noBlankSecond
  have replaces : (engine.style .standard entries).Replaces
      { kind := .partialTag, value := name, start := 0, stop := 0 } (spelled unmarked within) :=
    Style.replaces_of_parseTemplate rfl source (if_neg fun indented => indented.2 rfl) parsedBody
      (ignores_of_visible parsedBody (noBlankBody.visible parsedBody) oneLine)
  have begins : (engine.outlook view).Unlimited := by
    intro scope here
    obtain rfl := Option.some.inj here
    exact unlimited
  -- Both trees are written like their spellings, which differ in the one leaf.
  rw [← Style.write_spelled _ _ _ (ignores_of_visible parsed visible oneLine)] at wrote
  have same := inlined.write_deepens replaces depth begins (by simp [wrote])
  rw [Style.write_spelled _ _ _
    (ignores_of_visible parsedAfter (noBlank.visible parsedAfter) oneLine), wrote] at same
  refine Engine.render_of_parsed ready' paired data parsedAfter ?_
  rw [Style.write_deepens _ further _ _ after (.refl _) (by simp [same]), same]

theorem render_inlined_in_section :
    (Engine.render { cache := .keepFirst 0 } 4
        (.str ("a{{#s}}" ++ standardPartial "p" ++ "{{/s}}")) (.map [(.str "s", .bool true)])
        (.map [(.str "p", .str "b{{>r}}"), (.str "r", .str "c")]) .null
        { caches := [{}] }).1 = .ok "abc" ∧
      (Engine.render { cache := .keepFirst 0 } 4 (.str ("a{{#s}}" ++ "b{{>r}}" ++ "{{/s}}"))
        (.map [(.str "s", .bool true)]) (.map [(.str "p", .str "b{{>r}}"), (.str "r", .str "c")])
        .null { caches := [{}] }).1 = .ok "abc" := by
  let engine : Engine := { cache := .keepFirst 0 }
  let view : Value := .map [(.str "s", .bool true)]
  let entries : List (Value × Value) := [(.str "p", .str "b{{>r}}"), (.str "r", .str "c")]
  have ready : engine.Ready .standard { caches := [{}] } := .ofEmpty .standard rfl rfl (by simp)
  have data : view.IsDataView := Value.isDataView_of_isData rfl
  have noBlanks : ∀ entry ∈ entries, ∀ text, entry.2 = .str text → NoBlank text := by
    intro entry member text isText
    rcases List.mem_pair.1 member with rfl | rfl <;> obtain rfl := Value.str.inj isText <;> decide
  have parsedBody : parseTemplate "b{{>r}}" .standard none = .ok
      [.leaf ⟨.text, "b", 0, 1, {}⟩, .leaf ⟨.partialTag, "r", 1, 7, ⟨" ", 0, true⟩⟩] := rfl
  have parsed : parseTemplate ("a{{#s}}" ++ standardPartial "p" ++ "{{/s}}") .standard none = .ok
      [.leaf ⟨.text, "a", 0, 1, {}⟩, .block ⟨.sectionTag, "s", 1, 7, {}⟩
        [.leaf ⟨.partialTag, "p", 7, 13, ⟨" ", 1, true⟩⟩] 13] := rfl
  have rendered := @Engine.render_of_parsed _ _ .null _ _ entries _ ready rfl data 4 _ parsed
    (.ok "abc") (by decide +kernel)
  have isPartial : .tag .partialTag "p" "a{{#s}}".length 13 .standard ∈ (scan .standard
      ("a{{#s}}" ++ standardPartial "p" ++ "{{/s}}").toList).pieces :=
    .tail _ (.tail _ (.head _))
  exact ⟨rendered, render_inlined rfl rfl data ready ready (by decide) (by decide) noBlanks
    (by decide) (by decide) (by decide) (by decide) ⟨_, parsedBody⟩ rfl isPartial rendered 4
    (Nat.le_refl 4)⟩

end Mustache
