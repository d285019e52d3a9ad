import Mustache.Proofs.IndentedTags
import Mustache.Proofs.Refusals
import Mustache.Proofs.SectionText

set_option autoImplicit false

namespace Mustache

structure FirstFrom (word text : List Char) (offset place : Nat) : Prop where
  behind : offset ≤ place
  occurs : word <+: text.drop place
  first : ∀ earlier, offset ≤ earlier → earlier < place → ¬ word <+: text.drop earlier

def skipBlanks (text : List Char) (offset : Nat) : Nat :=
  offset + Pattern.blankRun (text.drop offset)

namespace Delimiters

def sigilAt? (pair : Delimiters) (text : List Char) (start : Nat) : Option Char :=
  text[skipBlanks text (start + pair.opening.length)]?.filter (sigils.contains ·)

/-- The offset behind the opening delimiter of a tag, its sigil and the white space after both. -/
def valueStart (pair : Delimiters) (text : List Char) (start : Nat) : Nat :=
  skipBlanks text
    (skipBlanks text (start + pair.opening.length) + (pair.sigilAt? text start).toList.length)

end Delimiters

/-- A tag as it is cut out of its source between delimiters. -/
structure Token.CutCleanly (token : Token) (source : String) (pair : Delimiters) : Prop where
  kind : token.kind = ((pair.sigilAt? source.toList token.start).map Kind.ofSigil).getD .escaped
  ends : VisibleEnds token.value.toList
  begins : token.value.toList <+: source.toList.drop (pair.valueStart source.toList token.start)
  inside : token.stop ≤ source.length
  opens : pair.opening <+: (textBetween source token.start token.stop).toList
  closes : pair.closing <:+ (textBetween source token.start token.stop).toList
  -- The values behind these two sigils end at a mark of their own.
  closesFirst : pair.sigilAt? source.toList token.start ≠ some '=' →
    pair.sigilAt? source.toList token.start ≠ some '{' →
      ¬ pair.closing <:+: token.value.toList ∧
        ∃ place,
          FirstFrom pair.closing source.toList (pair.valueStart source.toList token.start) place ∧
            token.stop = place + pair.closing.length

namespace Pattern

variable {literal text : List Char} {n : Nat}

theorem isSome_closerLength?_cons {c : Char} (blank : isBlank c = true)
    (later : (closerLength? literal text).isSome = true) :
    (closerLength? literal (c :: text)).isSome = true := by
  obtain ⟨n, found⟩ := Option.isSome_iff_exists.1 later
  simp [closerLength?, blank, found]

theorem visibleEnds_take_distance (begins : ∀ c, text.head? = some c → isBlank c = false)
    (found : ((closer literal).length?
      (text.drop ((closer literal).distance text))).isSome = true) :
    VisibleEnds (text.take ((closer literal).distance text)) := by
  generalize size : (closer literal).distance text = distance at found
  cases distance with
  | zero => simp [VisibleEnds]
  | succ k =>
    have within := distance_le (closer literal) text
    have inText : k < text.length := by omega
    constructor
    · cases text with
      | nil => rfl
      | cons c rest => simpa using begins c rfl
    · -- With a blank at the end of the value the match would have begun there.
      have last : (text.take (k + 1)).getLast? = some text[k] := by
        simp [List.getLast?_take, inText]
      rw [last, Option.any_some, ← Bool.not_eq_true]
      intro blank
      have missed : (closer literal).length? (text.drop k) = none :=
        length?_drop_of_lt_distance (by omega)
      have there := isSome_closerLength?_cons blank found
      rw [← List.drop_eq_getElem_cons inText] at there
      rw [length?] at missed
      simp [missed] at there

theorem not_infix_take_distance (nonempty : literal ≠ []) :
    ¬ literal <:+: text.take ((closer literal).distance text) := by
  rintro ⟨front, back, whole⟩
  have positive := List.length_pos_iff.2 nonempty
  have early : front.length < (closer literal).distance text := by
    have size := congrArg List.length whole
    simp only [List.length_append, List.length_take] at size
    omega
  apply not_prefix_of_lt_distance early
  rw [← List.take_append_drop ((closer literal).distance text) text, ← whole, List.append_assoc,
    List.append_assoc, List.drop_left]
  exact List.prefix_append literal _

theorem exists_firstFrom (visible : ∀ c, literal.head? = some c → isBlank c = false)
    (nonempty : literal ≠ [])
    (found : (closer literal).length? (text.drop ((closer literal).distance text)) = some n) :
    ∃ place, FirstFrom literal text 0 place ∧
      (closer literal).distance text + n = place + literal.length := by
  obtain ⟨blanks, rest, whole, allBlank, rfl⟩ := closerLength?_eq_some found
  refine ⟨(closer literal).distance text + blanks.length, ⟨Nat.zero_le _, ?_, ?_⟩, by omega⟩
  · rw [← List.drop_drop, whole, List.append_assoc, List.drop_left]
    exact List.prefix_append literal rest
  · intro earlier _ before occurs
    by_cases inValue : earlier < (closer literal).distance text
    · exact not_prefix_of_lt_distance inValue occurs
    · -- Behind the value stand blanks, and the literal does not begin with one.
      obtain ⟨k, rfl⟩ := Nat.exists_eq_add_of_le (Nat.not_lt.1 inValue)
      have inBlanks : k < blanks.length := by omega
      obtain ⟨c, more, rfl⟩ := List.exists_cons_of_ne_nil nonempty
      rw [← List.drop_drop, whole, List.append_assoc, List.drop_append_of_le_length inBlanks.le,
        List.drop_eq_getElem_cons inBlanks, List.cons_append, List.cons_prefix_cons] at occurs
      have blank := allBlank blanks[k] (List.getElem_mem inBlanks)
      rw [← occurs.1, visible c rfl] at blank
      contradiction

end Pattern

section Offsets

variable {word text : List Char} {offset place : Nat}

theorem FirstFrom.shift (front : Nat) (first : FirstFrom word (text.drop front) offset place) :
    FirstFrom word text (front + offset) (front + place) where
  behind := Nat.add_le_add_left first.behind front
  occurs := by
    rw [← List.drop_drop]
    exact first.occurs
  first earlier behind before occurs := by
    obtain ⟨k, rfl⟩ := Nat.exists_eq_add_of_le (Nat.le_of_add_right_le behind)
    rw [← List.drop_drop] at occurs
    exact first.first k (by omega) (by omega) occurs

theorem skipBlanks_drop (text : List Char) (front offset : Nat) :
    front + skipBlanks (text.drop front) offset = skipBlanks text (front + offset) := by
  simp [skipBlanks, Nat.add_assoc]

namespace Delimiters

variable (pair : Delimiters) (text : List Char) (start : Nat)

theorem sigilAt?_drop : pair.sigilAt? (text.drop start) 0 = pair.sigilAt? text start := by
  rw [sigilAt?, sigilAt?, List.getElem?_drop, skipBlanks_drop, Nat.zero_add]

theorem valueStart_drop :
    start + pair.valueStart (text.drop start) 0 = pair.valueStart text start := by
  rw [valueStart, valueStart, skipBlanks_drop, ← Nat.add_assoc, skipBlanks_drop, sigilAt?_drop,
    Nat.zero_add]

end Delimiters

end Offsets

section Tags

variable {pair : Delimiters} {text : List Char} {tag : Tag}

theorem tagSigil_front (opened : pair.opening.isPrefixOf text = true) :
    (tagSigil pair text).1 = (pair.sigilAt? text 0).toList ∧
      (tagSigil pair text).2.skip .blanks =
        ⟨pair.valueStart text 0, text.drop (pair.valueStart text 0)⟩ := by
  have front : (Cursor.start text).skip pair.openPattern =
      ⟨skipBlanks text pair.opening.length, text.drop (skipBlanks text pair.opening.length)⟩ := by
    simp [Cursor.skip, Cursor.take, Cursor.advance, Cursor.start, Delimiters.openPattern,
      Pattern.length?, opened, skipBlanks]
  have sigil : tagSigil pair text = ((pair.sigilAt? text 0).toList,
      (Cursor.mk (skipBlanks text pair.opening.length)
        (text.drop (skipBlanks text pair.opening.length))).advance
          (pair.sigilAt? text 0).toList.length) := by
    rw [tagSigil, front, Delimiters.sigilAt?, Nat.zero_add, ← List.head?_drop]
    cases left : text.drop (skipBlanks text pair.opening.length) with
    | nil => rfl
    | cons c rest =>
      by_cases isSigil : c ∈ sigils <;>
        simp [Cursor.take, Cursor.advance, Pattern.length?, Option.filter, isSigil]
  rw [sigil]
  refine ⟨rfl, ?_⟩
  simp [Cursor.skip, Cursor.take, Cursor.advance, Pattern.length?, Delimiters.valueStart,
    skipBlanks, Nat.add_assoc]

theorem exists_stop_readValue {sigil : List Char} {inner : Cursor} {n : Nat}
    (closed : pair.closePattern.length? (readValue pair sigil inner).2.rest = some n) :
    ∃ literal, (readValue pair sigil inner).1 = (inner.takeUntil (.closer literal)).1 ∧
      ((Pattern.closer literal).length?
        (inner.skipUntil (.closer literal)).rest).isSome = true := by
  have stopped {stop skipped : Pattern}
      (closed : pair.closePattern.length?
        (readPast stop skipped pair.closePattern inner).2.rest = some n) :
      (stop.length? (inner.skipUntil stop).rest).isSome = true := by
    rw [Option.isSome_iff_ne_none]
    intro missed
    rw [readPast_of_missed missed] at closed
    contradiction
  by_cases isEquals : sigil = ['=']
  · subst isEquals
    exact ⟨['='], rfl, stopped closed⟩
  by_cases isBrace : sigil = ['{']
  · subst isBrace
    exact ⟨'}' :: pair.closing, rfl, stopped closed⟩
  rw [readValue_plain pair inner isEquals isBrace] at closed ⊢
  exact ⟨pair.closing, rfl, Option.isSome_iff_exists.2 ⟨n, closed⟩⟩

theorem value_of_readTag? (opened : pair.opening.isPrefixOf text = true)
    (read : readTag? pair text = some tag) :
    VisibleEnds tag.value ∧ tag.value <+: text.drop (pair.valueStart text 0) := by
  rw [readTag?_eq_map, Option.map_eq_some_iff] at read
  obtain ⟨n, closed, rfl⟩ := read
  obtain ⟨-, inner⟩ := tagSigil_front opened
  have begins : ∀ c, ((tagSigil pair text).2.skip .blanks).rest.head? = some c →
      isBlank c = false := by
    intro c first
    apply @visible_of_take_drop_blankRun (tagSigil pair text).2.rest 1
    rw [List.head?_take]
    exact first
  obtain ⟨literal, taken, stands⟩ := exists_stop_readValue closed
  change VisibleEnds (tagBody pair text).1 ∧ (tagBody pair text).1 <+: _
  rw [tagBody, taken]
  constructor
  · exact Pattern.visibleEnds_take_distance begins stands
  · rw [inner]
    exact List.take_prefix _ _

theorem closesFirst_of_readTag? (unblank : pair.Unblank)
    (opened : pair.opening.isPrefixOf text = true) (read : readTag? pair text = some tag)
    (notEquals : pair.sigilAt? text 0 ≠ some '=') (notBrace : pair.sigilAt? text 0 ≠ some '{') :
    ¬ pair.closing <:+: tag.value ∧
      ∃ place, FirstFrom pair.closing text (pair.valueStart text 0) place ∧
        tag.length = place + pair.closing.length := by
  rw [readTag?_eq_map, Option.map_eq_some_iff] at read
  obtain ⟨n, closed, rfl⟩ := read
  obtain ⟨sigil, inner⟩ := tagSigil_front opened
  have body : tagBody pair text =
      (Cursor.mk (pair.valueStart text 0) (text.drop (pair.valueStart text 0))).takeUntil
        pair.closePattern := by
    rw [tagBody, inner, sigil, readValue_plain]
    · exact fun isEquals => notEquals (Option.toList_eq_singleton_iff.1 isEquals)
    · exact fun isBrace => notBrace (Option.toList_eq_singleton_iff.1 isBrace)
  have visible : ∀ c, pair.closing.head? = some c → isBlank c = false :=
    fun c first => unblank.2 c (List.mem_of_head? first)
  rw [body] at closed ⊢
  obtain ⟨place, first, size⟩ := Pattern.exists_firstFrom visible pair.closing_ne_nil closed
  refine ⟨Pattern.not_infix_take_distance pair.closing_ne_nil, _, first.shift _, ?_⟩
  simp only [Cursor.takeUntil, Cursor.advance, Delimiters.closePattern] at size ⊢
  omega

theorem Token.cutCleanly_of_readTag? {source : String} {token : Token} (unblank : pair.Unblank)
    (opened : pair.opening.isPrefixOf (source.toList.drop token.start) = true)
    (read : readTag? pair (source.toList.drop token.start) = some tag)
    (kind : token.kind = tag.kind) (value : token.value.toList = tag.value)
    (stop : token.stop = token.start + tag.length) : token.CutCleanly source pair := by
  have bound := length_le_of_readTag? read
  obtain ⟨ends, begins⟩ := value_of_readTag? opened read
  have first := closesFirst_of_readTag? unblank opened read
  obtain ⟨body, whole⟩ := exists_body_of_readTag? opened read
  have taken : (textBetween source token.start token.stop).toList =
      pair.opening ++ body ++ pair.closing := by
    rw [toList_textBetween, stop, Nat.add_sub_cancel_left]
    exact List.append_cancel_right ((List.take_append_drop tag.length _).trans whole)
  rw [List.drop_drop, pair.valueStart_drop] at begins
  rw [pair.sigilAt?_drop] at first
  constructor
  case kind =>
    rw [readTag?_eq_map, Option.map_eq_some_iff] at read
    obtain ⟨n, -, rfl⟩ := read
    rw [kind, (tagSigil_front opened).1, pair.sigilAt?_drop]
    cases pair.sigilAt? source.toList token.start <;> rfl
  case ends => rwa [value]
  case begins => rwa [value]
  case inside =>
    have positive := List.length_pos_iff.2 pair.opening_ne_nil
    have fits := (List.isPrefixOf_iff_prefix.1 opened).length_le
    rw [List.length_drop, String.length_toList] at bound fits
    omega
  case opens =>
    rw [taken, List.append_assoc]
    exact List.prefix_append _ _
  case closes =>
    rw [taken]
    exact List.suffix_append _ _
  case closesFirst =>
    intro notEquals notBrace
    obtain ⟨clean, place, isFirst, size⟩ := first notEquals notBrace
    refine ⟨by rwa [value], token.start + place, ?_, by omega⟩
    rw [← pair.valueStart_drop]
    exact isFirst.shift token.start

end Tags

theorem tokenize_cuts_tags {source : String} {pair : Delimiters} {name : Option String}
    {tokens : List Token} (unblank : pair.Unblank)
    (tokenized : tokenize source pair name = .ok tokens) :
    ∀ token ∈ tokens, token.isTag = true →
      token.CutCleanly source (pairAt pair (scan pair source.toList).pieces token.start) := by
  obtain ⟨⟨atEnd, ended⟩, -, rfl⟩ := tokenize_eq_ok_iff.1 tokenized
  intro token member isTag
  have run := readsAll_scan ended
  obtain ⟨piece, isPiece, ahead, rfl⟩ :=
    exists_piece_of_mem_rawFrom ((settle_sublist run.proper).subset member)
  obtain ⟨before, behind, pieces⟩ := List.append_of_mem isPiece
  rw [pieces] at run ⊢
  obtain ⟨reader, front, back⟩ := readsAll_append.1 run
  obtain ⟨next, step, -⟩ := readsAll_cons.1 back
  have inForce := front.pairAt back
  have here := front.offsets.2.2
  have stillUnblank := front.unblank unblank
  cases step with
  | text plain => cases isTag
  | @tag current following offset text found opened read after =>
    rw [Nat.sub_zero] at here
    dsimp only at inForce here stillUnblank
    subst here
    change Token.CutCleanly _ source
      (pairAt pair (before ++ found.piece offset current :: behind) offset)
    rw [inForce]
    exact Token.cutCleanly_of_readTag? stillUnblank opened read rfl String.toList_ofList rfl

theorem tokenize_cuts_tags_between_hashes :
    Delimiters.standard.Unblank ∧
      tokenize "{{=<# ##=}}<#& a#b ###" .standard none = .ok
        [⟨.delimiterTag, "<# ##", 0, 11, {}⟩, ⟨.unescaped, "a#b", 11, 21, {}⟩,
          ⟨.text, "#", 21, 22, {}⟩] ∧
      (pairAt .standard (scan .standard "{{=<# ##=}}<#& a#b ###".toList).pieces 11).toStrings =
        ("<#", "##") ∧
      Token.CutCleanly ⟨.unescaped, "a#b", 11, 21, {}⟩ "{{=<# ##=}}<#& a#b ###"
        (pairAt .standard (scan .standard "{{=<# ##=}}<#& a#b ###".toList).pieces 11) := by
  have unblank : Delimiters.standard.Unblank := by decide
  have tokenized : tokenize "{{=<# ##=}}<#& a#b ###" .standard none = .ok
      [⟨.delimiterTag, "<# ##", 0, 11, {}⟩, ⟨.unescaped, "a#b", 11, 21, {}⟩,
        ⟨.text, "#", 21, 22, {}⟩] := rfl
  refine ⟨unblank, tokenized, rfl, ?_⟩
  exact tokenize_cuts_tags unblank tokenized ⟨.unescaped, "a#b", 11, 21, {}⟩ (by simp) rfl

end Mustache
