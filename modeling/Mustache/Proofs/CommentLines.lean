import Mathlib.Data.List.DropRight
import Mustache.Proofs.DataInStep
import Mustache.Proofs.InlinePartial
import Mustache.Proofs.TagLines

set_option autoImplicit false

namespace Mustache

open Mustache.Action (Preserve)

structure IsComment (text : String) : Prop where
  notClosed : ¬ Delimiters.standard.closing <:+: text.toList
  noBraceAtEnd : text.toList.getLast? ≠ some '}'

def IsSpace (text : String) : Prop :=
  ∀ c ∈ text.toList, isBlank c = true ∧ c ≠ '\n'

/-- A line with a comment between two spaces. -/
def commentLine (before comment behind : String) : String :=
  before ++ "\x7b\x7b!" ++ comment ++ "\x7d\x7d" ++ behind ++ "\n"

/-- The first part is empty, or ends with a line feed that is scanned as text. -/
def BreaksAfter (first second : String) : Prop :=
  first = "" ∨ .text (first.length - 1) '\n' ∈ (scan .standard (first ++ second).toList).pieces

/-- A text behind which a line begins under the standard delimiters. -/
structure EndsLine (first : String) : Prop where
  complete : (scan .standard first.toList).ending = .complete .standard
  ends : first = "" ∨ first.toList.getLast? = some '\n'

section Comments

variable {before comment behind : String}

theorem IsSpace.not_mem (isSpace : IsSpace before) {c : Char} (visible : isBlank c = false) :
    c ∉ before.toList := by
  intro member
  rw [(isSpace c member).1] at visible
  contradiction

theorem IsSpace.oneLine (isSpace : IsSpace before) : '\n' ∉ before.toList :=
  fun member => (isSpace '\n' member).2 rfl

theorem IsComment.onlyAtEnd (isComment : IsComment comment) :
    OnlyAtEnd Delimiters.standard.closing comment.toList := by
  intro k early occurs
  by_cases inside : k + 1 < comment.toList.length
  · -- Both braces stand in the comment.
    apply isComment.notClosed
    rw [List.drop_append_of_le_length (by omega)] at occurs
    have shorter := List.prefix_of_prefix_length_le occurs (List.prefix_append _ _) (by
      simp only [Delimiters.standard, List.length_cons, List.length_nil, List.length_drop]
      omega)
    exact shorter.isInfix.trans (List.drop_suffix k _).isInfix
  · apply isComment.noBraceAtEnd
    have last : k = comment.toList.length - 1 := by omega
    obtain ⟨more, whole⟩ := occurs
    have head := congrArg List.head? whole
    rw [List.head?_drop, List.getElem?_append_left early, last, ← List.getLast?_eq_getElem?] at head
    exact head.symm

theorem OnlyAtEnd.suffix {word front text : List Char} (only : OnlyAtEnd word (front ++ text)) :
    OnlyAtEnd word text := by
  intro k early occurs
  apply only (front.length + k) (by simp only [List.length_append]; omega)
  rwa [List.append_assoc, List.drop_length_add_append]

theorem visibleEnds_trimBlank (text : List Char) : VisibleEnds (trimBlank text) := by
  have front := List.head?_dropWhile_not isBlank text
  have back := List.head?_dropWhile_not isBlank (text.dropWhile isBlank).reverse
  constructor
  · cases value : trimBlank text with
    | nil => rfl
    | cons c rest =>
      have within : trimBlank text <+: text.dropWhile isBlank := List.rdropWhile_prefix isBlank _
      obtain ⟨more, whole⟩ := value ▸ within
      rw [← whole] at front
      exact front
  · rw [trimBlank, List.getLast?_reverse]
    cases last : ((text.dropWhile isBlank).reverse.dropWhile isBlank).head? with
    | none => rfl
    | some c =>
      rw [last] at back
      exact back

theorem exists_blanks_around (text : List Char) :
    ∃ front back, text = front ++ (trimBlank text ++ back) ∧ (∀ c ∈ front, isBlank c = true) ∧
      (∀ c ∈ back, isBlank c = true) ∧ (trimBlank text = [] → back = []) := by
  let inner := text.dropWhile isBlank
  have behind : trimBlank text ++ inner.rtakeWhile isBlank = inner :=
    List.rdropWhile_append_rtakeWhile
  refine ⟨text.takeWhile isBlank, inner.rtakeWhile isBlank, ?_, ?_, ?_, fun nothing => ?_⟩
  · rw [behind, List.takeWhile_append_dropWhile]
  · exact fun c member => List.mem_takeWhile_imp member
  · exact fun c member => List.mem_rtakeWhile_imp member
  · have allBlank : ∀ c ∈ inner, isBlank c = true := (List.rdropWhile_eq_nil_iff).1 nothing
    rw [nothing, List.nil_append] at behind
    rw [behind]
    -- What is left of the text does not begin with a blank.
    have stops := List.head?_dropWhile_not isBlank text
    cases first : inner with
    | nil => rfl
    | cons c rest =>
      have visible : isBlank c = false := by
        rw [show text.dropWhile isBlank = c :: rest from first] at stops
        exact stops
      rw [allBlank c (by simp [first])] at visible
      contradiction

theorem readTag?_comment (isComment : IsComment comment) (rest : List Char) :
    readTag? .standard (tagText .standard ['!'] comment.toList ++ rest) =
      some ⟨.comment, trimBlank comment.toList,
        (tagText .standard ['!'] comment.toList).length⟩ := by
  obtain ⟨front, back, whole, blankFront, blankBack, bare⟩ := exists_blanks_around comment.toList
  have only := isComment.onlyAtEnd
  have ends := visibleEnds_trimBlank comment.toList
  generalize trimBlank comment.toList = value at *
  rw [whole] at only ⊢
  have visible : ∀ c ∈ Delimiters.standard.closing, isBlank c = false := by
    simp [Delimiters.standard, isBlank]
  have marked := tagSigil_sigil .standard (show '!' ∈ sigils by decide)
    (front ++ (value ++ back ++ Delimiters.standard.closing ++ rest))
  have read := readTag?_padded visible ends only.suffix bare blankFront blankBack marked
    (by decide) (by decide)
  have length : (tagText .standard ['!'] (front ++ (value ++ back))).length =
      Delimiters.standard.opening.length + 1 + front.length + value.length +
        (back.length + Delimiters.standard.closing.length) := by
    simp only [tagText, List.length_append, List.length_singleton]
    omega
  have written : tagText .standard ['!'] (front ++ (value ++ back)) ++ rest =
      Delimiters.standard.opening ++
        '!' :: (front ++ (value ++ back ++ Delimiters.standard.closing ++ rest)) := by
    simp [tagText]
  rw [written, length]
  exact read

def commentTagLine (spaceBefore : IsSpace before) (isComment : IsComment comment)
    (spaceBehind : IsSpace behind) : TagLine .standard where
  before := before.toList
  tag := tagText .standard ['!'] comment.toList
  kind := .comment
  value := String.ofList (trimBlank comment.toList)
  behind := behind.toList
  opened := opening_prefix_tagText _ _
  read rest := by
    rw [String.toList_ofList]
    exact readTag?_comment isComment rest
  keepsPair := by decide
  clearBefore := onlyAtEnd_of_not_mem (spaceBefore.not_mem (by decide))
  clearBehind := by
    intro inside
    have brace : '{' ∈ behind.toList ++ ['\n'] := inside.subset (by simp [Delimiters.standard])
    exact spaceBehind.not_mem (show isBlank '{' = false by decide) (by simpa using brace)
  oneLineBefore := spaceBefore.oneLine
  oneLineBehind := spaceBehind.oneLine

theorem toList_commentLine (spaceBefore : IsSpace before) (isComment : IsComment comment)
    (spaceBehind : IsSpace behind) :
    (commentLine before comment behind).toList =
      (commentTagLine spaceBefore isComment spaceBehind).text := by
  simp [commentLine, TagLine.text, commentTagLine, tagText, Delimiters.standard]

theorem settle_commentTagLine (spaceBefore : IsSpace before) (isComment : IsComment comment)
    (spaceBehind : IsSpace behind) :
    settle {} (commentTagLine spaceBefore isComment spaceBehind).pieces =
      [(commentTagLine spaceBefore isComment spaceBehind).token] := by
  refine TagLine.settle_of_isBlank _ ⟨rfl, ?_, ?_⟩
  · exact fun c member => (spaceBefore c member).1
  · exact fun c member => (spaceBehind c member).1

end Comments

section Streams

def stream (source : String) : List Token :=
  settle {} (scan .standard source.toList).pieces

def shownTokens (tokens : List Token) : List Token :=
  tokens.flatMap Token.shown

variable {tokens more : List Token} {nodes : List Node}

theorem shownTokens_eq_filter (tokens : List Token) :
    shownTokens tokens = (spell id tokens).filter fun token => token.kind ≠ .comment := by
  induction tokens with
  | nil => rfl
  | cons token rest ih =>
    rw [spell_cons, List.filter_append, ← ih, shownTokens, List.flatMap_cons, Token.shown]
    refine congrArg (· ++ _) ?_
    have kinds : ∀ piece ∈ token.spell id, piece.kind = token.kind :=
      fun piece member => Token.kind_of_mem_spell member
    split
    next isComment =>
      rw [eq_comm, List.filter_eq_nil_iff]
      intro piece member
      simp [kinds piece member, isComment]
    next isOther =>
      rw [eq_comm, List.filter_eq_self]
      intro piece member
      simp [kinds piece member, isOther]

theorem shownTokens_append :
    shownTokens (tokens ++ more) = shownTokens tokens ++ shownTokens more :=
  List.flatMap_append

theorem shownTokens_moved (distance : Nat) :
    shownTokens (tokens.map (Token.moved distance)) = shownTokens tokens := by
  rw [shownTokens_eq_filter, spell_moved, ← shownTokens_eq_filter]

theorem shownTokens_squash : shownTokens (squash tokens) = shownTokens tokens := by
  rw [shownTokens_eq_filter, spell_squash, ← shownTokens_eq_filter]

theorem Token.shown_of_section {token : Token}
    (isSection : token.kind.opensBody = true ∨ token.kind = .closeTag) :
    token.shown = [token.unplaced id] := by
  have notText : token.kind ≠ .text := by
    rintro isText
    simp [isText, Kind.opensBody] at isSection
  have notComment : token.kind ≠ .comment := by
    rintro isComment
    simp [isComment, Kind.opensBody] at isSection
  rw [shown, if_neg notComment, spell_tag notText]

theorem Token.leaves_shown {token : Token} (opens : token.kind.opensBody = false)
    (closes : token.kind ≠ .closeTag) :
    ∀ piece ∈ token.shown, piece.kind.opensBody = false ∧ piece.kind ≠ .closeTag := by
  intro piece member
  unfold shown at member
  split at member
  next => cases member
  next =>
    rw [kind_of_mem_spell member]
    exact ⟨opens, closes⟩

theorem openNames_shownTokens (opened : List String) (tokens : List Token) :
    openNames opened (shownTokens tokens) = openNames opened tokens := by
  induction tokens generalizing opened with
  | nil => rfl
  | cons token rest ih =>
    have cons : shownTokens (token :: rest) = token.shown ++ shownTokens rest := rfl
    by_cases isSection : token.kind.opensBody = true ∨ token.kind = .closeTag
    · rw [cons, Token.shown_of_section isSection, List.singleton_append]
      simp only [openNames, ih]
      rfl
    · rw [not_or, Bool.not_eq_true] at isSection
      have leaves := Nests.leaves (Token.leaves_shown isSection.1 isSection.2) .nil
      rw [List.append_nil] at leaves
      rw [cons, openNames_append leaves, ih, openNames_other isSection.1 isSection.2]

theorem Nests.shown (nests : Nests tokens nodes) :
    Nests (shownTokens tokens) (shownNodes nodes) := by
  induction nests with
  | nil => exact .nil
  | leaf opens closes _ ih => exact ih.leaves (Token.leaves_shown opens closes)
  | @block opener close inner rest children nodes opens closes named _ _ ihInner ihRest =>
    have split : shownTokens (opener :: (inner ++ close :: rest)) =
        opener.shown ++ (shownTokens inner ++ (close.shown ++ shownTokens rest)) := by
      simp [shownTokens]
    rw [split, Token.shown_of_section (.inl opens), Token.shown_of_section (.inr closes)]
    exact @Nests.block (opener.unplaced id) (close.unplaced id) _ _ _ _ opens closes named
      ihInner ihRest

theorem Nests.exists_shown (nests : Nests tokens nodes)
    (same : shownTokens more = shownTokens tokens) :
    ∃ others, Nests more others ∧ shownNodes others = shownNodes nodes := by
  have matched : openNames [] more = some [] := by
    rw [← openNames_shownTokens, same, openNames_shownTokens]
    exact openNames_of_nests nests
  obtain ⟨others, nested⟩ := exists_nests matched
  have shown := nested.shown
  rw [same] at shown
  exact ⟨others, nested, shown.unique nests.shown⟩

end Streams

section Lines

variable {first second before comment behind : String} {inForce : Delimiters} {nodes : List Node}

theorem BreaksAfter.endsLine (breaks : BreaksAfter first second)
    (complete : (scan .standard (first ++ second).toList).ending = .complete inForce)
    (keeps : KeepsPair .standard first.toList) : EndsLine first := by
  by_cases empty : first = ""
  · subst empty
    exact ⟨rfl, .inl rfl⟩
  have length : 0 < first.length := by
    rw [← String.length_toList, List.length_pos_iff]
    simpa using empty
  have run := readsAll_scan complete
  obtain ⟨front, back, split⟩ := List.append_of_mem (breaks.resolve_left empty)
  rw [split, String.toList_append] at run
  obtain ⟨between, toLineFeed, fromLineFeed⟩ := readsAll_append.1 run
  obtain ⟨middle, step, -⟩ := readsAll_cons.1 fromLineFeed
  have reached : ReadsAll ⟨.standard, 0, first.toList ++ second.toList⟩
      (front ++ [.text (first.length - 1) '\n']) middle :=
    readsAll_append.2 ⟨between, toLineFeed, .cons step (.nil _)⟩
  have reach : middle.offset = first.toList.length := by
    have stop := step.offsets.2.1
    change first.length - 1 + 1 = middle.offset at stop
    rw [String.length_toList]
    omega
  have scanned := scan_of_reach reached reach
  constructor
  · have standard : middle.pair = .standard := by
      refine reached.pair_eq ?_
      unfold KeepsPair at keeps
      rwa [scanned] at keeps
    rw [scanned, standard]
  · -- The line feed is the character at the last place of the first part.
    have rest := toLineFeed.offsets.2.2
    cases step with
    | text plain =>
      have head := congrArg List.head? rest
      simp only [List.head?_cons, List.head?_drop, Nat.sub_zero] at head
      rw [← String.length_toList] at head length
      rw [List.getElem?_append_left (by omega), ← List.getLast?_eq_getElem?] at head
      exact .inr head.symm

theorem endsLine_commentLine (spaceBefore : IsSpace before) (isComment : IsComment comment)
    (spaceBehind : IsSpace behind) : EndsLine (commentLine before comment behind) where
  complete := by
    rw [toList_commentLine spaceBefore isComment spaceBehind, TagLine.scan]
  ends := by
    rw [commentLine, String.toList_append]
    exact .inr List.getLast?_concat

theorem shown_stream_commentLine (spaceBefore : IsSpace before) (isComment : IsComment comment)
    (spaceBehind : IsSpace behind) :
    shownTokens (stream (commentLine before comment behind)) = [] := by
  rw [stream, toList_commentLine spaceBefore isComment spaceBehind, TagLine.scan,
    settle_commentTagLine]
  rfl

theorem EndsLine.scan_append (endsLine : EndsLine first) (second : String) :
    scan .standard (first ++ second).toList =
      ((scan .standard second.toList).moved first.length).prependAll
        (scan .standard first.toList).pieces := by
  rcases endsLine.ends with rfl | ends
  · rw [String.toList_append]
    exact scan_standard_append rfl (by decide) (by simp) second.toList
  · exact Mustache.scan_append (by decide) ends endsLine.complete

theorem EndsLine.stream_append (endsLine : EndsLine first) (second : String) :
    stream (first ++ second) = stream first ++ (stream second).map (Token.moved first.length) := by
  have settled (more : List Piece) :
      settle {} ((scan .standard first.toList).pieces ++ more) =
        stream first ++ settle {} more := by
    rcases endsLine.ends with rfl | ends
    · rfl
    · exact settle_scan_append (by decide) ends endsLine.complete more
  rw [stream, endsLine.scan_append, Scan.prependAll, settled]
  exact congrArg (stream first ++ ·) (settle_moved first.length {} _)

theorem exists_shown_of_commentLine (parsed : parseTemplate (first ++ second) .standard = .ok nodes)
    (breaks : BreaksAfter first second) (keeps : KeepsPair .standard first.toList)
    (spaceBefore : IsSpace before) (isComment : IsComment comment) (spaceBehind : IsSpace behind) :
    ∃ others, parseTemplate (first ++ commentLine before comment behind ++ second) .standard =
      .ok others ∧ shownNodes others = shownNodes nodes := by
  obtain ⟨⟨inForce, complete⟩, nests⟩ := parseTemplate_eq_ok_iff_nests.1 parsed
  have endsLine := breaks.endsLine complete keeps
  have line := endsLine_commentLine spaceBefore isComment spaceBehind
  have shows :
      shownTokens (squash (stream (first ++ commentLine before comment behind ++ second))) =
        shownTokens (squash (stream (first ++ second))) := by
    rw [shownTokens_squash, shownTokens_squash, String.append_assoc, endsLine.stream_append,
      endsLine.stream_append, line.stream_append, shownTokens_append, shownTokens_append,
      shownTokens_moved, shownTokens_moved, shownTokens_append, shownTokens_moved,
      shown_stream_commentLine spaceBefore isComment spaceBehind, List.nil_append]
  obtain ⟨others, nested, same⟩ := nests.exists_shown shows
  refine ⟨others, parseTemplate_eq_ok_iff_nests.2 ⟨⟨inForce, ?_⟩, nested⟩, same⟩
  rw [endsLine.scan_append] at complete
  rw [String.append_assoc, endsLine.scan_append, line.scan_append]
  exact complete

end Lines

section Rendering

def Session.counts (s : Session) : List ((Nat × Nat) × Nat) × Nat :=
  (s.calls, s.nextSerial)

theorem unscoped_counts : Unscoped Session.counts :=
  fun _ _ _ _ => rfl

theorem onShared_sameData {α : Type} {step : Session.Shared → α × Session.Shared}
    (taken : Session.Shared.Taken step) :
    Preserve (Session.SameData Session.counts) (Action.onShared step) (Action.onShared step) := by
  intro s t same
  obtain ⟨calls, serial⟩ := Prod.mk.inj same.kept
  cases taken with
  | count identity =>
    unfold Action.onShared Session.Shared.count Session.shared
    rw [calls]
    exact ⟨rfl, { same with kept := congrArg (_, ·) serial }⟩
  | make code owner args =>
    unfold Action.onShared Session.Shared.make Session.shared
    rw [serial]
    exact ⟨rfl, { same with kept := congrArg (·, _) calls }⟩

namespace Engine

variable {engine : Engine}

theorem alike_uncached (engine : Engine) (partials : Value) (source source' : Option String)
    (pair : Delimiters) :
    Job.Alike Session.counts ⟨engine.uncached, partials, source, pair⟩
      ⟨engine.uncached, partials, source', pair⟩ where
  escaper := rfl
  resolves name :=
    resolvePartial_inStep (Preserve.inStep (scopeShared_sameData unscoped_counts) onShared_sameData)
      name _
  parses found := by
    rw [parse_uncached]
    refine .bind (.record (scopeShared_sameData unscoped_counts) _) fun _ => ?_
    exact .bind (.ofExcept _) fun nodes => .pure _

theorem render_of_shown {pair : Delimiters} {tags view : Value} {s : Session}
    (ready : engine.Ready pair s) (paired : engine.pairFor tags = .ok pair)
    (data : view.IsDataView) {source source' : String} {nodes nodes' : List Node}
    (parsed : parseTemplate source pair = .ok nodes)
    (parsed' : parseTemplate source' pair = .ok nodes')
    (same : shownNodes nodes = shownNodes nodes') (depth : Nat) (partials : Value) :
    (engine.render depth (.str source) view partials tags s).1 =
      (engine.render depth (.str source') view partials tags s).1 := by
  have run {text : String} {tree : List Node} (parsed : parseTemplate text pair = .ok tree) :
      engine.uncached.render depth (.str text) view partials tags s =
        engine.uncached.renderTree depth (.parsed tree) view partials (some text) pair none
          { s with log := .treeMissing none text pair :: s.log } := by
    have tree : engine.uncached.parse text pair none s =
        (.ok (.parsed tree), { s with log := .treeMissing none text pair :: s.log }) := by
      rw [parse_uncached, parsed]
      rfl
    unfold Engine.render
    simp only [pairFor_uncached, paired]
    exact Action.bind_of_ok tree
  have alike := alike_uncached engine partials (some source) (some source') pair
  have start : Preserve (Session.SameData Session.counts)
      (Job.start depth ⟨engine.uncached, partials, some source, pair⟩ (.parsed nodes))
      (Job.start depth ⟨engine.uncached, partials, some source', pair⟩ (.parsed nodes')) :=
    (Job.render_showsData unscoped_counts depth).preserve alike same
  rw [ready.render_eq_uncached paired, ready.render_eq_uncached paired, run parsed, run parsed']
  exact renderTree_sameData unscoped_counts data start rfl none rfl rfl

theorem render_commentLine {first second before comment behind : String}
    (parses : ∃ nodes, parseTemplate (first ++ second) .standard = .ok nodes)
    (breaks : BreaksAfter first second) (keeps : KeepsPair .standard first.toList)
    (spaceBefore : IsSpace before) (isComment : IsComment comment) (spaceBehind : IsSpace behind) :
    (∃ nodes, parseTemplate (first ++ commentLine before comment behind ++ second) .standard =
      .ok nodes) ∧
    ∀ (engine : Engine) (tags view partials : Value) (s : Session) (depth : Nat),
      engine.pairFor tags = .ok .standard → engine.Ready .standard s → view.IsDataView →
        (engine.render depth (.str (first ++ commentLine before comment behind ++ second)) view
          partials tags s).1 =
        (engine.render depth (.str (first ++ second)) view partials tags s).1 := by
  obtain ⟨nodes, parsed⟩ := parses
  obtain ⟨others, parsed', same⟩ :=
    exists_shown_of_commentLine parsed breaks keeps spaceBefore isComment spaceBehind
  refine ⟨⟨others, parsed'⟩, fun engine tags view partials s depth paired ready data => ?_⟩
  exact render_of_shown ready paired data parsed' parsed same depth partials

theorem render_commentLine_in_section :
    let first := "{{#a}}\n"
    let second := "  {{>p}}\n{{/a}}"
    let line := commentLine " " " see\n\x7d p " "\t"
    let engine : Engine := { cache := .keepFirst 0 }
    let view : Value := .map [(.str "a", .list [.str "x", .str "y"])]
    let partials : Value := .map [(.str "p", .str "<>\n")]
    let s : Session := { caches := [{}] }
    (∃ nodes, parseTemplate (first ++ second) .standard = .ok nodes) ∧ BreaksAfter first second ∧
      KeepsPair .standard first.toList ∧ IsSpace " " ∧ IsComment " see\n\x7d p " ∧ IsSpace "\t" ∧
      engine.pairFor .null = .ok .standard ∧ engine.Ready .standard s ∧ view.IsDataView ∧
      (engine.render 4 (.str (first ++ second)) view partials .null s).1.toOption =
        some "  <>\n  <>\n" ∧
      (engine.render 4 (.str (first ++ line ++ second)) view partials .null s).1 =
        (engine.render 4 (.str (first ++ second)) view partials .null s).1 := by
  intro first second line engine view partials s
  have parsed : parseTemplate ("{{#a}}\n" ++ "  {{>p}}\n{{/a}}") .standard = .ok
      [.block ⟨.sectionTag, "a", 0, 6, {}⟩ [.leaf ⟨.partialTag, "p", 9, 15, ⟨"  ", 0, false⟩⟩]
        16] := rfl
  have parses : ∃ nodes, parseTemplate (first ++ second) .standard = .ok nodes := ⟨_, parsed⟩
  have lineFeed : .text 6 '\n' ∈
      (scan .standard ("{{#a}}\n" ++ "  {{>p}}\n{{/a}}").toList).pieces := .tail _ (.head _)
  have breaks : BreaksAfter first second := by
    have last : first.length - 1 = 6 := by decide
    rw [BreaksAfter, last]
    exact .inr lineFeed
  have keeps : KeepsPair .standard first.toList := by decide
  have space : IsSpace " " := by
    intro c member
    obtain rfl := List.mem_singleton.1 member
    decide
  have tab : IsSpace "\t" := by
    intro c member
    obtain rfl := List.mem_singleton.1 member
    decide
  have isComment : IsComment " see\n\x7d p " :=
    ⟨by simp [Delimiters.standard, List.infix_cons_iff], by decide⟩
  have ready : engine.Ready .standard s := .ofEmpty .standard rfl rfl (by simp [s])
  have data : view.IsDataView := Value.isDataView_of_isData rfl
  obtain ⟨-, neutral⟩ := render_commentLine parses breaks keeps space isComment tab
  exact ⟨parses, breaks, keeps, space, isComment, tab, rfl, ready, data, by decide +kernel,
    neutral engine .null view partials s 4 rfl ready data⟩

end Engine

end Rendering

end Mustache
