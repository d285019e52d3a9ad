import Mathlib.Data.List.Infix
import Mathlib.Data.List.TakeWhile
import Mustache.Proofs.LineByLine
import Mustache.Proofs.NestedIndentation

set_option autoImplicit false

namespace Mustache

inductive Indented : List Char → List Char → Prop
  | nil : Indented [] []
  | char {c : Char} {text text' : List Char} : c ≠ '\n' → Indented text text' →
      Indented (c :: text) (c :: text')
  | lineFeed {margin text text' : List Char} : IsMargin margin → Indented text text' →
      Indented ('\n' :: text) ('\n' :: (margin ++ text'))

namespace Indented

variable {text text' rest rest' literal : List Char} {c : Char}

theorem append_left (line : List Char) (indented : Indented rest rest') :
    Indented (line ++ rest) (line ++ rest') := by
  induction line with
  | nil => exact indented
  | cons c line ih =>
    by_cases isLineFeed : c = '\n'
    · subst isLineFeed
      exact @lineFeed [] _ _ (List.forall_mem_nil _) ih
    · exact .char isLineFeed ih

theorem refl (text : List Char) : Indented text text := by
  simpa using append_left text .nil

theorem cons_iff (other : c ≠ '\n') :
    Indented (c :: rest) text' ↔ ∃ rest', text' = c :: rest' ∧ Indented rest rest' := by
  constructor
  · intro indented
    cases indented with
    | char _ indented => exact ⟨_, rfl, indented⟩
    | lineFeed => contradiction
  · rintro ⟨rest', rfl, indented⟩
    exact .char other indented

theorem of_cons (other : c ≠ '\n') (indented : Indented text (c :: rest')) :
    ∃ rest, text = c :: rest ∧ Indented rest rest' := by
  cases indented with
  | char _ indented => exact ⟨_, rfl, indented⟩
  | lineFeed => contradiction

theorem split (oneLine : '\n' ∉ literal) (indented : Indented (literal ++ rest) text') :
    ∃ rest', text' = literal ++ rest' ∧ Indented rest rest' := by
  induction literal generalizing text' with
  | nil => exact ⟨text', rfl, indented⟩
  | cons c literal ih =>
    rw [List.mem_cons, not_or] at oneLine
    obtain ⟨later, rfl, indented'⟩ := (cons_iff (Ne.symm oneLine.1)).1 indented
    obtain ⟨rest', rfl, behind⟩ := ih oneLine.2 indented'
    exact ⟨rest', rfl, behind⟩

theorem split' (oneLine : '\n' ∉ literal) (indented : Indented text (literal ++ rest')) :
    ∃ rest, text = literal ++ rest ∧ Indented rest rest' := by
  induction literal generalizing text with
  | nil => exact ⟨text, rfl, indented⟩
  | cons c literal ih =>
    rw [List.mem_cons, not_or] at oneLine
    obtain ⟨later, rfl, indented'⟩ := of_cons (Ne.symm oneLine.1) indented
    obtain ⟨rest, rfl, behind⟩ := ih oneLine.2 indented'
    exact ⟨rest, rfl, behind⟩

theorem prefix_iff (oneLine : '\n' ∉ literal) (indented : Indented text text') :
    literal <+: text' ↔ literal <+: text := by
  constructor
  · rintro ⟨rest', rfl⟩
    obtain ⟨rest, rfl, -⟩ := indented.split' oneLine
    exact List.prefix_append literal rest
  · rintro ⟨rest, rfl⟩
    obtain ⟨rest', rfl, -⟩ := indented.split oneLine
    exact List.prefix_append literal rest'

theorem dropWhile {dropped : Char → Bool}
    (blanks : ∀ c, c = '\n' ∨ c = ' ' ∨ c = '\t' → dropped c = true)
    (indented : Indented text text') :
    Indented (text.dropWhile dropped) (text'.dropWhile dropped) := by
  induction indented with
  | nil => exact .nil
  | @char c text text' other indented ih =>
    by_cases drops : dropped c = true
    · rwa [List.dropWhile_cons_of_pos drops, List.dropWhile_cons_of_pos drops]
    · rw [List.dropWhile_cons_of_neg drops, List.dropWhile_cons_of_neg drops]
      exact .char other indented
  | @lineFeed margin text text' isMargin indented ih =>
    have front : dropped '\n' = true := blanks _ (.inl rfl)
    have behind : ∀ c ∈ margin, dropped c = true :=
      fun c member => blanks c (.inr (isMargin c member))
    rwa [List.dropWhile_cons_of_pos front, List.dropWhile_cons_of_pos front,
      List.dropWhile_append_of_pos behind]

theorem dropWhile_isBlank (indented : Indented text text') :
    Indented (text.dropWhile isBlank) (text'.dropWhile isBlank) :=
  indented.dropWhile fun c blank => by rcases blank with rfl | rfl | rfl <;> decide

theorem tail (other : ∀ c, text.head? = some c → c ≠ '\n') (indented : Indented text text') :
    Indented text.tail text'.tail := by
  cases indented with
  | nil => exact .nil
  | char _ indented => exact indented
  | lineFeed => exact absurd rfl (other '\n' rfl)

section Literals

variable (visible : ∀ c ∈ literal, isBlank c = false) (nonempty : literal ≠ [])

include visible nonempty

theorem not_prefix_of_isBlank (blank : isBlank c = true) : ¬ literal <+: c :: text := by
  obtain ⟨first, rest, rfl⟩ := List.exists_cons_of_ne_nil nonempty
  intro front
  obtain rfl := (List.cons_prefix_cons.1 front).1
  simp [visible first List.mem_cons_self] at blank

theorem infix_behind_blanks {blanks : List Char} (allBlank : ∀ c ∈ blanks, isBlank c = true)
    (inside : literal <:+: blanks ++ text) : literal <:+: text := by
  induction blanks with
  | nil => exact inside
  | cons c blanks ih =>
    rw [List.forall_mem_cons] at allBlank
    rcases List.infix_cons_iff.1 inside with front | later
    · exact absurd front (not_prefix_of_isBlank visible nonempty allBlank.1)
    · exact ih allBlank.2 later

theorem infix_in_text (indented : Indented text text') (inside : literal <:+: text') :
    literal <:+: text := by
  have oneLine : '\n' ∉ literal := fun member => by simpa using visible _ member
  induction indented with
  | nil => exact inside
  | @char c text text' other indented ih =>
    rcases List.infix_cons_iff.1 inside with front | later
    · exact ((Indented.char other indented).prefix_iff oneLine |>.1 front).isInfix
    · exact (ih later).trans (List.suffix_cons c text).isInfix
  | @lineFeed margin text text' isMargin indented ih =>
    rcases List.infix_cons_iff.1 inside with front | later
    · exact absurd front (not_prefix_of_isBlank visible nonempty isBlank_lineFeed)
    · have behind := infix_behind_blanks visible nonempty isMargin.isBlank later
      exact (ih behind).trans (List.suffix_cons '\n' text).isInfix

end Literals

end Indented

namespace Pattern

variable {literal : List Char}

theorem not_prefix_of_lt_distance {text : List Char} {n : Nat}
    (early : n < (closer literal).distance text) : ¬ literal <+: text.drop n := by
  rintro ⟨after, here⟩
  have missed := length?_drop_of_lt_distance early
  have found := isSome_closerLength? literal [] after (List.forall_mem_nil _)
  rw [List.nil_append, here] at found
  rw [length?] at missed
  rw [missed] at found
  contradiction

theorem isSome_skipUntil_closer (nonempty : literal ≠ []) (cursor : Cursor) :
    ((closer literal).length? (cursor.skipUntil (closer literal)).rest).isSome = true ↔
      literal <:+: cursor.rest := by
  have suffix : (cursor.skipUntil (closer literal)).rest <:+ cursor.rest :=
    List.drop_suffix _ _
  constructor
  · intro found
    obtain ⟨n, there⟩ := Option.isSome_iff_exists.1 found
    obtain ⟨blanks, rest, whole, -⟩ := closerLength?_eq_some there
    exact List.IsInfix.trans ⟨blanks, rest, whole.symm⟩ suffix.isInfix
  · rintro ⟨before, after, whole⟩
    rw [Option.isSome_iff_ne_none]
    intro missed
    have far := distance_eq_length missed
    have early : before.length < (closer literal).distance cursor.rest := by
      have positive := List.length_pos_iff.2 nonempty
      rw [far, ← whole]
      simp only [List.length_append]
      omega
    apply not_prefix_of_lt_distance early
    rw [← whole, List.append_assoc, List.drop_left]
    exact List.prefix_append literal after

end Pattern

def Delimiters.ClosesIn (pair : Delimiters) (sigil inner : List Char) : Prop :=
  if sigil = ['='] then pair.closing <:+: (inner.dropWhile (· ≠ '=')).tail
  else if sigil = ['{'] then ('}' :: pair.closing) <:+: inner
  else pair.closing <:+: inner

section Closing

variable {pair : Delimiters} {inner : Cursor}

theorem not_infix_nil {literal : List Char} (nonempty : literal ≠ []) : ¬ literal <:+: [] :=
  fun inside => nonempty (List.infix_nil.1 inside)

theorem rest_skip_closer {cursor : Cursor} {c : Char} {blanks rest : List Char}
    (here : cursor.rest = blanks ++ c :: rest) (allBlank : ∀ c ∈ blanks, isBlank c = true)
    (visible : isBlank c = false) : (cursor.skip (.closer [c])).rest = rest := by
  have found : (Pattern.closer [c]).length? cursor.rest = some (blanks.length + 1) := by
    rw [here, ← List.singleton_append, ← List.append_assoc]
    exact Pattern.closerLength?_of_visible blanks rest (by simpa using visible) (by simp) allBlank
  rw [rest_skip_of_eq_some found, here, ← List.drop_drop, List.drop_left]
  rfl

theorem readPast_of_missed {stop skipped : Pattern}
    (missed : stop.length? (inner.skipUntil stop).rest = none) :
    pair.closePattern.length? (readPast stop skipped pair.closePattern inner).2.rest = none := by
  have ended := Cursor.rest_skip_of_eq_nil skipped (Cursor.rest_skipUntil_eq_nil missed)
  rw [readPast, Cursor.rest_skipUntil_of_eq_nil _ ended, closePattern_nil]

theorem isSome_readValue_brace :
    (pair.closePattern.length? (readValue pair ['{'] inner).2.rest).isSome = true ↔
      ('}' :: pair.closing) <:+: inner.rest := by
  rw [readValue_brace, Delimiters.closeBracePattern,
    ← Pattern.isSome_skipUntil_closer (List.cons_ne_nil '}' pair.closing) inner]
  cases found : (Pattern.closer ('}' :: pair.closing)).length?
      (inner.skipUntil (.closer ('}' :: pair.closing))).rest with
  | none => rw [readPast_of_missed found]
  | some n =>
    obtain ⟨blanks, rest, whole, allBlank, -⟩ := Pattern.closerLength?_eq_some found
    rw [List.append_assoc, List.cons_append] at whole
    rw [readPast, Delimiters.closePattern, Pattern.isSome_skipUntil_closer pair.closing_ne_nil,
      rest_skip_closer whole allBlank isBlank_brace]
    exact iff_of_true (List.prefix_append _ _).isInfix rfl

theorem isSome_readValue_equals :
    (pair.closePattern.length? (readValue pair ['='] inner).2.rest).isSome = true ↔
      pair.closing <:+: (inner.rest.dropWhile (· ≠ '=')).tail := by
  rw [readValue_equals]
  have others {text : List Char} (missing : '=' ∉ text) :
      ∀ c ∈ text, decide (c ≠ '=') = true :=
    fun c member => decide_eq_true fun same => missing (same ▸ member)
  cases found : (Pattern.closer ['=']).length? (inner.skipUntil (.closer ['='])).rest with
  | none =>
    have absent : '=' ∉ inner.rest := by
      intro member
      have inside : ['='] <:+: inner.rest := (List.singleton_infix_iff _ _).2 member
      rw [← Pattern.isSome_skipUntil_closer (by simp) inner, found] at inside
      contradiction
    rw [readPast_of_missed found, List.dropWhile_eq_nil_iff.2 (others absent)]
    exact iff_of_false (by simp) (not_infix_nil pair.closing_ne_nil)
  | some n =>
    obtain ⟨blanks, rest, whole, allBlank, -⟩ := Pattern.closerLength?_eq_some found
    rw [List.append_assoc, List.singleton_append] at whole
    rw [readPast, Delimiters.closePattern, Pattern.isSome_skipUntil_closer pair.closing_ne_nil,
      rest_skip_closer whole allBlank isBlank_equals]
    have taken : '=' ∉ (inner.takeUntil (.closer ['='])).1 := by
      intro member
      obtain ⟨n, early, there⟩ := List.mem_take_iff_getElem.1 member
      apply Pattern.not_prefix_of_lt_distance (Nat.lt_of_lt_of_le early (Nat.min_le_left _ _))
      rw [List.drop_eq_getElem_cons (Nat.lt_of_lt_of_le early (Nat.min_le_right _ _)), there]
      exact List.prefix_append ['='] _
    have passed : '=' ∉ blanks := fun member => by
      have blank := allBlank _ member
      rw [isBlank_equals] at blank
      contradiction
    rw [← inner.takeUntil_append_rest (.closer ['='])]
    change _ ↔ _ <:+: (List.dropWhile _ (_ ++ (inner.skipUntil (.closer ['='])).rest)).tail
    rw [whole, List.dropWhile_append_of_pos (others taken),
      List.dropWhile_append_of_pos (others passed), List.dropWhile_cons_of_neg (by simp),
      List.tail_cons]

theorem isSome_readTag?_iff (pair : Delimiters) (text : List Char) :
    (readTag? pair text).isSome = true ↔
      pair.ClosesIn (tagSigil pair text).1 ((tagSigil pair text).2.skip .blanks).rest := by
  rw [readTag?_eq_map, Option.isSome_map, tagBody, Delimiters.ClosesIn]
  split
  next isEquals => rw [isEquals, isSome_readValue_equals]
  next notEquals =>
    split
    next isBrace => rw [isBrace, isSome_readValue_brace]
    next notBrace =>
      rw [readValue_plain pair _ notEquals notBrace]
      exact Pattern.isSome_skipUntil_closer pair.closing_ne_nil _

end Closing

section Tags

variable {pair : Delimiters} {text text' inner inner' sigil : List Char}

theorem Delimiters.Unblank.closesIn (unblank : pair.Unblank) (indented : Indented inner inner')
    (closes : pair.ClosesIn sigil inner') : pair.ClosesIn sigil inner := by
  unfold ClosesIn at closes ⊢
  split at closes
  next isEquals =>
    rw [if_pos isEquals]
    have found : Indented (inner.dropWhile (· ≠ '=')) (inner'.dropWhile (· ≠ '=')) :=
      indented.dropWhile fun c blank => by rcases blank with rfl | rfl | rfl <;> decide
    refine (found.tail fun c first => ?_).infix_in_text unblank.2 pair.closing_ne_nil closes
    have isEquals := List.head?_dropWhile_not (fun c => decide (c ≠ '=')) inner
    rw [first] at isEquals
    obtain rfl : c = '=' := by simpa using isEquals
    decide
  next notEquals =>
    rw [if_neg notEquals]
    split at closes
    next isBrace =>
      rw [if_pos isBrace]
      exact indented.infix_in_text
        (List.forall_mem_cons.2 ⟨isBlank_brace, unblank.2⟩) (List.cons_ne_nil _ _) closes
    next notBrace =>
      rw [if_neg notBrace]
      exact indented.infix_in_text unblank.2 pair.closing_ne_nil closes

theorem Cursor.rest_skip_blanks (cursor : Cursor) :
    (cursor.skip .blanks).rest = cursor.rest.dropWhile isBlank :=
  drop_blankRun cursor.rest

theorem Cursor.rest_skip_opener (literal rest : List Char) :
    ((Cursor.start (literal ++ rest)).skip (.opener literal)).rest = rest.dropWhile isBlank := by
  simp only [skip, take, advance, start, Pattern.length?, List.isPrefixOf_iff_prefix,
    List.prefix_append, if_true, Option.getD_some, List.drop_left]
  rw [← List.drop_drop, List.drop_left, drop_blankRun]

theorem Indented.take_sigil {cursor cursor' : Cursor}
    (indented : Indented cursor.rest cursor'.rest) :
    (cursor.take .sigil).1 = (cursor'.take .sigil).1 ∧
      Indented (cursor.take .sigil).2.rest (cursor'.take .sigil).2.rest := by
  obtain ⟨offset, rest⟩ := cursor
  obtain ⟨offset', rest'⟩ := cursor'
  cases indented with
  | nil => exact ⟨rfl, .nil⟩
  | @char c text text' other indented =>
    by_cases isSigil : c ∈ sigils
    · simpa [Cursor.take, Cursor.advance, Pattern.length?, isSigil] using indented
    · simpa [Cursor.take, Cursor.advance, Pattern.length?, isSigil] using
        Indented.char other indented
  | lineFeed isMargin indented =>
    have notSigil : '\n' ∉ sigils := by decide
    simpa [Cursor.take, Cursor.advance, Pattern.length?, notSigil] using
      Indented.lineFeed isMargin indented

theorem isSome_readTag?_of_indented (unblank : pair.Unblank) (opened : pair.opening <+: text)
    (indented : Indented text text') (found : (readTag? pair text').isSome = true) :
    (readTag? pair text).isSome = true := by
  have oneLine : '\n' ∉ pair.opening := fun member => by simpa using unblank.1 _ member
  obtain ⟨after, rfl⟩ := opened
  obtain ⟨after', rfl, behind⟩ := indented.split oneLine
  rw [isSome_readTag?_iff] at found ⊢
  have inner : Indented ((Cursor.start (pair.opening ++ after)).skip pair.openPattern).rest
      ((Cursor.start (pair.opening ++ after')).skip pair.openPattern).rest := by
    rw [Delimiters.openPattern, Cursor.rest_skip_opener, Cursor.rest_skip_opener]
    exact behind.dropWhile_isBlank
  obtain ⟨sigil, marked⟩ := inner.take_sigil
  rw [tagSigil] at found ⊢
  rw [sigil]
  refine unblank.closesIn ?_ found
  rw [Cursor.rest_skip_blanks, Cursor.rest_skip_blanks]
  exact marked.dropWhile_isBlank

theorem readTag?_of_indented (unblank : pair.Unblank) (opened : pair.opening <+: text)
    (indented : Indented text text') {tag' : Tag} (found : readTag? pair text' = some tag')
    (oneLine : ∀ tag, readTag? pair text = some tag → '\n' ∉ text.take tag.length) :
    readTag? pair text = some tag' ∧
      Indented (text.drop tag'.length) (text'.drop tag'.length) := by
  have closed := isSome_readTag?_of_indented unblank opened indented (by rw [found]; rfl)
  obtain ⟨tag, read⟩ := Option.isSome_iff_exists.1 closed
  rw [← List.isPrefixOf_iff_prefix] at opened
  have longer := opening_length_lt_of_readTag? read opened
  have length := List.length_take_of_le (length_le_of_readTag? read)
  rw [← List.take_append_drop tag.length text] at indented
  obtain ⟨rest', rfl, behind⟩ := indented.split (oneLine tag read)
  -- What the tag takes of the text is a tag of its own, and stays one before any other rest.
  have opensAlone : pair.opening.isPrefixOf (text.take tag.length) = true := by
    rw [isPrefixOf_take (Nat.le_of_lt longer), opened]
  have again := readTag?_append unblank opensAlone (readTag?_take read (Nat.le_refl _)) rest'
  obtain rfl : tag' = tag := Option.some.inj (found.symm.trans again)
  rw [List.drop_left' length]
  exact ⟨read, behind⟩

end Tags

def Token.name? (token : Token) : Option String :=
  if token.kind.writesValue || token.kind.opensBody then some token.value else none

def Piece.name? (piece : Piece) : Option String :=
  piece.bareTag?.bind Token.name?

def Piece.slice (source : List Char) (piece : Piece) : List Char :=
  (source.take piece.stop).drop piece.start

def OneLineTags (pair : Delimiters) (source : List Char) : Prop :=
  ∀ piece ∈ (scan pair source).pieces, piece.isTag = true → '\n' ∉ piece.slice source

instance (pair : Delimiters) (source : List Char) : Decidable (OneLineTags pair source) :=
  inferInstanceAs (Decidable (∀ piece ∈ (scan pair source).pieces,
    piece.isTag = true → '\n' ∉ piece.slice source))

def namesIn (pair : Delimiters) (source : List Char) : List String :=
  (scan pair source).pieces.filterMap Piece.name?

section Scans

variable {pair : Delimiters} {source : List Char} {reader reader' last' : Reader}
  {before : List Piece} {tag : Tag}

theorem ReadsAll.tag_mem {first : Reader} (reached : ReadsAll first before reader)
    (opened : reader.pair.opening.isPrefixOf reader.rest = true)
    (read : readTag? reader.pair reader.rest = some tag) :
    tag.piece reader.offset reader.pair ∈ first.scan.pieces := by
  rw [reached.scan]
  refine List.mem_append_right _ ?_
  rw [Reader.scan, scanFrom_of_readTag? reader.offset opened read]
  cases tag.pairAfter reader.pair with
  | error words => exact List.mem_singleton_self _
  | ok next => exact List.mem_cons_self

theorem ReadsAll.slice_tag (reached : ReadsAll ⟨pair, 0, source⟩ before reader) :
    (tag.piece reader.offset reader.pair).slice source = reader.rest.take tag.length := by
  have rest := reached.offsets.2.2
  rw [Nat.sub_zero] at rest
  rw [rest, Piece.slice, Tag.piece, Piece.start, Piece.stop, List.drop_take,
    Nat.add_sub_cancel_left]

theorem ReadsAll.snoc {first : Reader} {piece : Piece} {last : Reader}
    (reached : ReadsAll first before reader) (step : Reads reader piece last) :
    ReadsAll first (before ++ [piece]) last :=
  readsAll_append.2 ⟨reader, reached, .cons step (.nil last)⟩

/-- A reader of a text, and one of the indented text that may have a margin still before it. -/
structure Reader.Accompanies (reader reader' : Reader) : Prop where
  pair : reader'.pair = reader.pair
  rest : ∃ margin text', IsMargin margin ∧ reader'.rest = margin ++ text' ∧
    Indented reader.rest text'

section Steps

variable (unblank : pair.Unblank) (reached : ReadsAll ⟨pair, 0, source⟩ before reader)

include unblank reached

theorem ReadsAll.oneLine_opening : '\n' ∉ reader.pair.opening := by
  intro member
  have visible := (reached.unblank unblank).1 _ member
  rw [isBlank_lineFeed] at visible
  contradiction

theorem accompanies_text {pair' : Delimiters} {offset' : Nat} {c : Char} {rest' : List Char}
    (beside : reader.Accompanies ⟨pair', offset', c :: rest'⟩)
    (plain : pair'.opening.isPrefixOf (c :: rest') = false) :
    ∃ before middle, ReadsAll ⟨pair, 0, source⟩ before middle ∧
      middle.Accompanies ⟨pair', offset' + 1, rest'⟩ := by
  have oneLine := reached.oneLine_opening unblank
  obtain ⟨inForce, offset, rest⟩ := reader
  obtain ⟨same, margin, text', isMargin, ahead, indented⟩ := beside
  obtain rfl : pair' = inForce := same
  cases margin with
  | cons d margin =>
    obtain ⟨rfl, rfl⟩ := List.cons.inj ahead
    have isMargin' : IsMargin margin := (List.forall_mem_cons.1 isMargin).2
    exact ⟨before, _, reached, rfl, margin, text', isMargin', rfl, indented⟩
  | nil =>
    obtain rfl : c :: rest' = text' := ahead
    rw [← Bool.not_eq_true, List.isPrefixOf_iff_prefix, indented.prefix_iff oneLine,
      ← List.isPrefixOf_iff_prefix, Bool.not_eq_true] at plain
    generalize here : rest = text at indented
    cases indented with
    | char other indented =>
      subst here
      exact ⟨_, _, reached.snoc (.text plain), rfl, [], _, isMargin, rfl, indented⟩
    | lineFeed isMargin' indented =>
      subst here
      exact ⟨_, _, reached.snoc (.text plain), rfl, _, _, isMargin', rfl, indented⟩

theorem accompanies_tag {pair' next : Delimiters} {offset' : Nat} {source' : List Char}
    (oneLine : OneLineTags pair source) (beside : reader.Accompanies ⟨pair', offset', source'⟩)
    (opened : pair'.opening.isPrefixOf source' = true) (read : readTag? pair' source' = some tag)
    (after : tag.pairAfter pair' = .ok next) :
    tag.piece reader.offset pair' ∈ (scan pair source).pieces ∧
      ∃ before middle, ReadsAll ⟨pair, 0, source⟩ before middle ∧
        middle.Accompanies ⟨next, offset' + tag.length, source'.drop tag.length⟩ := by
  have oneLineOpening := reached.oneLine_opening unblank
  have unblankHere := reached.unblank unblank
  obtain ⟨inForce, offset, rest⟩ := reader
  obtain ⟨same, margin, text', isMargin, ahead, indented⟩ := beside
  obtain rfl : pair' = inForce := same
  obtain rfl : source' = margin ++ text' := ahead
  rw [List.isPrefixOf_iff_prefix] at opened
  cases margin with
  | cons d margin =>
    -- No tag begins in a margin.
    have blank := isMargin.isBlank d List.mem_cons_self
    exact absurd opened
      (Indented.not_prefix_of_isBlank unblankHere.1 pair'.opening_ne_nil blank)
  | nil =>
    rw [List.nil_append] at opened read
    have opened' := (indented.prefix_iff oneLineOpening).1 opened
    have isOpen := List.isPrefixOf_iff_prefix.2 opened'
    obtain ⟨read', behind⟩ := readTag?_of_indented unblankHere opened' indented read
      fun tag read => by
        rw [← reached.slice_tag]
        exact oneLine _ (reached.tag_mem isOpen read) rfl
    exact ⟨reached.tag_mem isOpen read', _, _, reached.snoc (.tag isOpen read' after),
      rfl, [], _, isMargin, rfl, behind⟩

theorem Reads.accompanied {piece' : Piece} {middle' : Reader} (oneLine : OneLineTags pair source)
    (step : Reads reader' piece' middle') (beside : reader.Accompanies reader') :
    (∃ before middle, ReadsAll ⟨pair, 0, source⟩ before middle ∧ middle.Accompanies middle') ∧
      ∀ name, piece'.name? = some name → name ∈ namesIn pair source := by
  cases step with
  | text plain =>
    exact ⟨accompanies_text unblank reached beside plain, fun name named => by contradiction⟩
  | tag opened read after =>
    obtain ⟨member, onward⟩ := accompanies_tag unblank reached oneLine beside opened read after
    exact ⟨onward, fun name named => List.mem_filterMap.2 ⟨_, member, named⟩⟩

theorem ReadsAll.names_subset {pieces' : List Piece} (oneLine : OneLineTags pair source)
    (run : ReadsAll reader' pieces' last') (beside : reader.Accompanies reader') :
    pieces'.filterMap Piece.name? ⊆ namesIn pair source := by
  induction run generalizing before reader with
  | nil reader' => exact List.nil_subset _
  | cons step run ih =>
    obtain ⟨⟨_, _, reached', beside'⟩, named⟩ := step.accompanied unblank reached oneLine beside
    have later := ih reached' beside'
    intro name member
    obtain ⟨piece, inside, isName⟩ := List.mem_filterMap.1 member
    rcases List.mem_cons.1 inside with rfl | inside
    · exact named name isName
    · exact later (List.mem_filterMap.2 ⟨piece, inside, isName⟩)

end Steps

theorem Indented.namesIn_subset {margin text' : List Char} {inForce : Delimiters}
    (unblank : pair.Unblank) (oneLine : OneLineTags pair source) (isMargin : IsMargin margin)
    (indented : Indented source text')
    (complete : (scan pair (margin ++ text')).ending = .complete inForce) :
    namesIn pair (margin ++ text') ⊆ namesIn pair source :=
  ReadsAll.names_subset unblank (.nil _) oneLine (readsAll_scan complete)
    ⟨rfl, margin, text', isMargin, rfl, indented⟩

end Scans

section Partials

variable {margin : List Char}

def Margined (line line' : List Char) : Prop :=
  ∃ front, IsMargin front ∧ line' = front ++ line

theorem Margined.refl (line : List Char) : Margined line line :=
  ⟨[], List.forall_mem_nil _, rfl⟩

theorem margined_indentLines (isMargin : IsMargin margin) (lines : List (List Char)) :
    List.Forall₂ Margined lines (indentLines margin lines) := by
  rw [indentLines, List.forall₂_map_right_iff, List.forall₂_same]
  intro line _
  split
  · exact .refl line
  · exact ⟨margin, isMargin, rfl⟩

theorem exists_indented_joinLines {lines lines' : List (List Char)}
    (margined : List.Forall₂ Margined lines lines') :
    ∃ front text', IsMargin front ∧ joinLines lines' = front ++ text' ∧
      Indented (joinLines lines) text' := by
  induction margined with
  | nil => exact ⟨[], [], List.forall_mem_nil _, rfl, .nil⟩
  | @cons line line' rest rest' first others ih =>
    obtain ⟨front, isFront, rfl⟩ := first
    cases others with
    | nil => exact ⟨front, line, isFront, rfl, .refl line⟩
    | cons next others =>
      obtain ⟨inner, text', isInner, joined, indented⟩ := ih
      refine ⟨front, line ++ '\n' :: (inner ++ text'), isFront, ?_,
        .append_left line (.lineFeed isInner indented)⟩
      rw [← List.append_assoc, ← joined]
      rfl

theorem exists_indented_indentPartial (source indentation : String) (hasText : Bool) :
    ∃ front text', IsMargin front ∧
      (indentPartial source indentation hasText).toList = front ++ text' ∧
      Indented source.toList text' := by
  have isMargin : IsMargin (indentation.toList.filter fun c => c = ' ' ∨ c = '\t') :=
    fun c member => by simpa using (List.mem_filter.1 member).2
  have whole : joinLines (cutLines source.toList) = source.toList := joinWith_cutAt '\n' _
  have {lines' : List (List Char)} := @exists_indented_joinLines (cutLines source.toList) lines'
  rw [whole] at this
  rw [indentPartial, String.toList_ofList]
  apply this
  split
  next =>
    cases cutLines source.toList with
    | nil => exact .nil
    | cons line rest => exact .cons (.refl line) (margined_indentLines isMargin rest)
  next => exact margined_indentLines isMargin _

theorem exists_indented_partialSource (token : Token) (source : String) :
    ∃ front text', IsMargin front ∧
      (Job.partialSource token source).toList = front ++ text' ∧
      Indented source.toList text' := by
  unfold Job.partialSource
  split
  next => exact exists_indented_indentPartial source _ _
  next => exact ⟨[], _, List.forall_mem_nil _, rfl, .refl _⟩

theorem namesIn_partialSource_subset {pair inForce : Delimiters} {token : Token} {found : String}
    (unblank : pair.Unblank) (oneLine : OneLineTags pair found.toList)
    (complete : (scan pair (Job.partialSource token found).toList).ending = .complete inForce) :
    namesIn pair (Job.partialSource token found).toList ⊆ namesIn pair found.toList := by
  obtain ⟨front, text', isFront, whole, indented⟩ := exists_indented_partialSource token found
  rw [whole] at complete ⊢
  exact indented.namesIn_subset unblank oneLine isFront complete

end Partials

end Mustache
