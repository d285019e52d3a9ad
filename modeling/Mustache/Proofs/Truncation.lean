import Mustache.Token.Piece

set_option autoImplicit false

namespace Mustache

namespace Pattern

theorem blankRun_take (text : List Char) (k : Nat) :
    blankRun (text.take k) = min (blankRun text) k := by
  induction text generalizing k with
  | nil => simp [blankRun]
  | cons c rest ih =>
    cases k with
    | zero => simp [blankRun]
    | succ k =>
      have next := ih k
      by_cases blank : isBlank c <;> simp_all [blankRun]

theorem literalLength?_append (literal rest : List Char) :
    literalLength? literal (literal ++ rest) = some literal.length := by
  simp [literalLength?]

theorem isSome_closerLength? (literal blanks rest : List Char)
    (allBlank : ∀ c ∈ blanks, isBlank c = true) :
    (closerLength? literal (blanks ++ literal ++ rest)).isSome = true := by
  -- It need not be the longest match: the literal may begin with white space of its own.
  induction blanks with
  | nil =>
    have here := literalLength?_append literal rest
    cases whole : literal ++ rest <;> simp_all [closerLength?]
  | cons c blanks ih =>
    have later := ih (fun d member => allBlank d (by simp [member]))
    have blank : isBlank c = true := allBlank c (by simp)
    obtain ⟨n, found⟩ := Option.isSome_iff_exists.1 later
    simp only [List.append_assoc] at found
    simp [closerLength?, blank, found]

theorem closerLength?_of_visible {literal : List Char} (blanks rest : List Char)
    (visible : ∀ c, literal.head? = some c → isBlank c = false) (nonempty : literal ≠ [])
    (allBlank : ∀ c ∈ blanks, isBlank c = true) :
    closerLength? literal (blanks ++ literal ++ rest) = some (blanks.length + literal.length) := by
  -- The literal cannot begin inside the blanks, so no longer match competes.
  induction blanks with
  | nil =>
    obtain ⟨c, more, rfl⟩ := List.exists_cons_of_ne_nil nonempty
    have here := literalLength?_append (c :: more) rest
    simp_all [closerLength?]
  | cons c blanks ih =>
    have later := ih (fun d member => allBlank d (by simp [member]))
    have blank : isBlank c = true := allBlank c (by simp)
    simp only [List.append_assoc] at later
    simp [closerLength?, blank, later]
    omega

theorem closerLength?_nil {literal : List Char} (nonempty : literal ≠ []) :
    closerLength? literal [] = none := by
  cases literal with
  | nil => contradiction
  | cons c rest => simp [closerLength?, literalLength?]

theorem literalLength?_take {literal text : List Char} {n k : Nat}
    (found : literalLength? literal text = some n) (inside : n ≤ k) :
    literalLength? literal (text.take k) = some n := by
  obtain ⟨rfl, rest, rfl⟩ := literalLength?_eq_some found
  rw [List.take_append, List.take_of_length_le inside]
  exact literalLength?_append literal _

theorem closerLength?_take_eq_none {literal text : List Char} (k : Nat)
    (missed : closerLength? literal text = none) :
    closerLength? literal (text.take k) = none := by
  cases found : closerLength? literal (text.take k) with
  | none => rfl
  | some n =>
    obtain ⟨blanks, rest, whole, allBlank, -⟩ := closerLength?_eq_some found
    have there := isSome_closerLength? literal blanks (rest ++ text.drop k) allBlank
    rw [← List.append_assoc, ← whole, List.take_append_drop, missed] at there
    contradiction

theorem closerLength?_take {literal text : List Char} {n k : Nat}
    (found : closerLength? literal text = some n) (inside : n ≤ k) :
    closerLength? literal (text.take k) = some n := by
  induction text generalizing n k with
  | nil => simpa [closerLength?] using found
  | cons c rest ih =>
    cases k with
    | zero =>
      obtain rfl : n = 0 := by omega
      obtain ⟨blanks, after, -, -, size⟩ := closerLength?_eq_some found
      have empty : literal = [] := List.eq_nil_of_length_eq_zero (by omega)
      simp [closerLength?, literalLength?, empty]
    | succ k =>
      rw [closerLength?, Option.or_eq_some_iff] at found
      rw [List.take_succ_cons, closerLength?, Option.or_eq_some_iff]
      rcases found with inner | ⟨missed, here⟩
      -- The longest match goes on past this blank.
      · left
        obtain ⟨blank, moved⟩ := Option.ite_none_right_eq_some.1 inner
        obtain ⟨m, later, rfl⟩ := Option.map_eq_some_iff.1 moved
        have next := ih later (Nat.le_of_succ_le_succ inside)
        simp [blank, next]
      · right
        constructor
        · by_cases blank : isBlank c = true
          · simp only [blank, if_true, Option.map_eq_none_iff] at missed ⊢
            exact closerLength?_take_eq_none k missed
          · simp [blank]
        · exact literalLength?_take here inside

theorem length?_take {pattern : Pattern} {text : List Char} {n k : Nat}
    (found : pattern.length? text = some n) (inside : n ≤ k) :
    pattern.length? (text.take k) = some n := by
  cases pattern with
  | blanks =>
    simp only [length?, Option.some.injEq, blankRun_take] at found ⊢
    omega
  | someBlanks =>
    simp only [length?, Option.ite_none_left_eq_some, Option.some.injEq, blankRun_take] at found ⊢
    omega
  | sigil =>
    cases text with
    | nil => simp [length?] at found
    | cons c rest =>
      cases k with
      | zero =>
        simp only [length?, Option.ite_none_right_eq_some, Option.some.injEq] at found
        omega
      | succ k => simpa [length?] using found
  | opener literal =>
    simp only [length?, Option.ite_none_right_eq_some, Option.some.injEq] at found ⊢
    -- The blanks behind the literal may reach the cut, but not beyond it.
    obtain ⟨fits, rfl⟩ := found
    rw [List.isPrefixOf_iff_prefix] at fits ⊢
    obtain ⟨rest, rfl⟩ := fits
    rw [List.drop_left] at inside
    rw [List.take_append, List.take_of_length_le (by omega)]
    simp only [List.prefix_append, List.drop_left, blankRun_take, true_and]
    omega
  | closer literal => exact closerLength?_take found inside

theorem length?_take_eq_none {pattern : Pattern} {text : List Char} (k : Nat)
    (missed : pattern.length? text = none) : pattern.length? (text.take k) = none := by
  cases pattern with
  | blanks => simp [length?] at missed
  | someBlanks =>
    simp only [length?, ite_eq_left_iff, reduceCtorEq, imp_false, Decidable.not_not,
      blankRun_take] at missed ⊢
    omega
  | sigil =>
    cases text with
    | nil => simp [length?]
    | cons c rest => cases k <;> simp_all [length?]
  | opener literal =>
    simp only [length?, ite_eq_right_iff, reduceCtorEq, imp_false] at missed ⊢
    intro fits
    rw [List.isPrefixOf_iff_prefix] at fits missed
    exact missed (fits.trans (List.take_prefix k text))
  | closer literal => exact closerLength?_take_eq_none k missed

theorem distance_eq_zero {pattern : Pattern} {text : List Char}
    (found : (pattern.length? text).isSome = true) : pattern.distance text = 0 := by
  cases text with
  | nil => rfl
  | cons c rest => simp [distance, found]

theorem distance_cons_of_none {pattern : Pattern} {c : Char} {rest : List Char}
    (missed : pattern.length? (c :: rest) = none) :
    pattern.distance (c :: rest) = pattern.distance rest + 1 := by
  simp [distance, missed]

theorem distance_eq_length {pattern : Pattern} {text : List Char}
    (missed : pattern.length? (text.drop (pattern.distance text)) = none) :
    pattern.distance text = text.length := by
  induction text with
  | nil => rfl
  | cons c rest ih =>
    cases found : pattern.length? (c :: rest) with
    | some n =>
      rw [distance_eq_zero (by simp [found]), List.drop_zero, found] at missed
      contradiction
    | none =>
      rw [distance_cons_of_none found] at missed ⊢
      rw [List.length_cons, ih missed]

theorem distance_take {pattern : Pattern} {text : List Char} {k : Nat}
    (left : (pattern.length? ((text.drop (pattern.distance text)).take k)).isSome = true) :
    pattern.distance (text.take (pattern.distance text + k)) = pattern.distance text := by
  induction text with
  | nil => simp [distance]
  | cons c rest ih =>
    cases found : pattern.length? (c :: rest) with
    | some n =>
      have here : pattern.distance (c :: rest) = 0 := distance_eq_zero (by simp [found])
      rw [here, List.drop_zero] at left
      rw [here, Nat.zero_add]
      exact distance_eq_zero left
    -- No match is made by cutting, so the search passes this character as before.
    | none =>
      have cut := length?_take_eq_none (pattern.distance rest + k + 1) found
      rw [distance_cons_of_none found, List.drop_succ_cons] at left
      rw [distance_cons_of_none found, Nat.add_right_comm, List.take_succ_cons]
      rw [List.take_succ_cons] at cut
      rw [distance_cons_of_none cut, ih left]

end Pattern

namespace Cursor

def upTo (k : Nat) (cursor : Cursor) : Cursor :=
  ⟨cursor.offset, cursor.rest.take (k - cursor.offset)⟩

theorem upTo_advance (cursor : Cursor) (n k : Nat) :
    (cursor.advance n).upTo k = (cursor.upTo k).advance n := by
  simp [upTo, advance, List.drop_take, Nat.sub_sub]

theorem offset_le_take (cursor : Cursor) (pattern : Pattern) :
    cursor.offset ≤ (cursor.take pattern).2.offset := by
  simp [take, advance]

theorem offset_le_takeUntil (cursor : Cursor) (pattern : Pattern) :
    cursor.offset ≤ (cursor.takeUntil pattern).2.offset := by
  simp [takeUntil, advance]

theorem take_upTo {cursor : Cursor} {pattern : Pattern} {k : Nat}
    (inside : (cursor.take pattern).2.offset ≤ k) :
    (cursor.upTo k).take pattern = ((cursor.take pattern).1, (cursor.take pattern).2.upTo k) := by
  have same : (pattern.length? (cursor.upTo k).rest).getD 0 =
      (pattern.length? cursor.rest).getD 0 := by
    cases found : pattern.length? cursor.rest with
    | none => simp [upTo, Pattern.length?_take_eq_none _ found]
    | some n =>
      simp only [take, advance, found, Option.getD_some] at inside
      simp [upTo, Pattern.length?_take found (show n ≤ k - cursor.offset by omega)]
  simp only [take, advance] at inside
  simp only [take, same, upTo_advance, Prod.mk.injEq, and_true]
  simp only [upTo, List.take_take]
  rw [Nat.min_eq_left (by omega)]

theorem takeUntil_upTo {cursor : Cursor} {pattern : Pattern} {k : Nat}
    (inside : (cursor.takeUntil pattern).2.offset ≤ k)
    (left : (pattern.length? ((cursor.takeUntil pattern).2.upTo k).rest).isSome = true) :
    (cursor.upTo k).takeUntil pattern =
      ((cursor.takeUntil pattern).1, (cursor.takeUntil pattern).2.upTo k) := by
  simp only [takeUntil, advance, upTo] at inside left
  have same : pattern.distance (cursor.upTo k).rest = pattern.distance cursor.rest := by
    have cut := Pattern.distance_take left
    rwa [show pattern.distance cursor.rest + (k - (cursor.offset + pattern.distance cursor.rest)) =
      k - cursor.offset by omega] at cut
  simp only [takeUntil, same, upTo_advance, Prod.mk.injEq, and_true]
  simp only [upTo, List.take_take]
  rw [Nat.min_eq_left (by omega)]

theorem skip_upTo {cursor : Cursor} {pattern : Pattern} {k : Nat}
    (inside : (cursor.skip pattern).offset ≤ k) :
    (cursor.upTo k).skip pattern = (cursor.skip pattern).upTo k := by
  simp only [skip, take_upTo inside]

theorem skipUntil_upTo {cursor : Cursor} {pattern : Pattern} {k : Nat}
    (inside : (cursor.skipUntil pattern).offset ≤ k)
    (left : (pattern.length? ((cursor.skipUntil pattern).upTo k).rest).isSome = true) :
    (cursor.upTo k).skipUntil pattern = (cursor.skipUntil pattern).upTo k := by
  simp only [skipUntil, takeUntil_upTo inside left]

theorem isSome_upTo {cursor : Cursor} {pattern : Pattern} {n k : Nat}
    (found : pattern.length? cursor.rest = some n) (inside : cursor.offset + n ≤ k) :
    (pattern.length? (cursor.upTo k).rest).isSome = true := by
  simp [upTo, Pattern.length?_take found (show n ≤ k - cursor.offset by omega)]

theorem rest_skipUntil_eq_nil {cursor : Cursor} {pattern : Pattern}
    (missed : pattern.length? (cursor.skipUntil pattern).rest = none) :
    (cursor.skipUntil pattern).rest = [] := by
  simp only [skipUntil, takeUntil, advance] at missed ⊢
  rw [Pattern.distance_eq_length missed, List.drop_length]

theorem rest_skip_of_eq_nil {cursor : Cursor} (pattern : Pattern) (empty : cursor.rest = []) :
    (cursor.skip pattern).rest = [] := by
  simp [skip, take, advance, empty]

theorem rest_skipUntil_of_eq_nil {cursor : Cursor} (pattern : Pattern) (empty : cursor.rest = []) :
    (cursor.skipUntil pattern).rest = [] := by
  simp [skipUntil, takeUntil, advance, empty]

theorem skipUntil_of_isSome {cursor : Cursor} {pattern : Pattern}
    (found : (pattern.length? cursor.rest).isSome = true) : cursor.skipUntil pattern = cursor := by
  simp [skipUntil, takeUntil, advance, Pattern.distance_eq_zero found]

end Cursor

section Tags

variable {pair : Delimiters} {inner : Cursor} {n k : Nat}

theorem closePattern_nil (pair : Delimiters) : pair.closePattern.length? [] = none :=
  Pattern.closerLength?_nil pair.closing_ne_nil

def readPast (stop skipped close : Pattern) (inner : Cursor) : List Char × Cursor :=
  ((inner.takeUntil stop).1, ((inner.skipUntil stop).skip skipped).skipUntil close)

theorem readValue_equals (pair : Delimiters) (inner : Cursor) :
    readValue pair ['='] inner = readPast (.closer ['=']) (.closer ['=']) pair.closePattern inner :=
  rfl

theorem readValue_brace (pair : Delimiters) (inner : Cursor) :
    readValue pair ['{'] inner =
      readPast pair.closeBracePattern (.closer ['}']) pair.closePattern inner := rfl

theorem readValue_plain {sigil : List Char} (pair : Delimiters) (inner : Cursor)
    (notEquals : sigil ≠ ['=']) (notBrace : sigil ≠ ['{']) :
    readValue pair sigil inner = inner.takeUntil pair.closePattern := by
  simp [readValue, notEquals, notBrace]

theorem offset_le_readPast (stop skipped close : Pattern) (inner : Cursor) :
    inner.offset ≤ (inner.skipUntil stop).offset ∧
      (inner.skipUntil stop).offset ≤ ((inner.skipUntil stop).skip skipped).offset ∧
      ((inner.skipUntil stop).skip skipped).offset ≤ (readPast stop skipped close inner).2.offset :=
  ⟨inner.offset_le_takeUntil stop, Cursor.offset_le_take _ skipped,
    Cursor.offset_le_takeUntil _ close⟩

theorem offset_le_readValue (pair : Delimiters) (sigil : List Char) (inner : Cursor) :
    inner.offset ≤ (readValue pair sigil inner).2.offset := by
  by_cases isEquals : sigil = ['=']
  · subst isEquals
    have steps := offset_le_readPast (.closer ['=']) (.closer ['=']) pair.closePattern inner
    exact Nat.le_trans steps.1 (Nat.le_trans steps.2.1 steps.2.2)
  by_cases isBrace : sigil = ['{']
  · subst isBrace
    have steps := offset_le_readPast pair.closeBracePattern (.closer ['}']) pair.closePattern inner
    exact Nat.le_trans steps.1 (Nat.le_trans steps.2.1 steps.2.2)
  rw [readValue_plain pair inner isEquals isBrace]
  exact inner.offset_le_takeUntil _

theorem readPast_upTo {stop skipped : Pattern}
    (closed : pair.closePattern.length? (readPast stop skipped pair.closePattern inner).2.rest =
      some n)
    (inside : (readPast stop skipped pair.closePattern inner).2.offset + n ≤ k)
    (stopped : ∀ m, stop.length? (inner.skipUntil stop).rest = some m →
      (inner.skipUntil stop).offset + m ≤ k) :
    readPast stop skipped pair.closePattern (inner.upTo k) =
      ((readPast stop skipped pair.closePattern inner).1,
        (readPast stop skipped pair.closePattern inner).2.upTo k) := by
  obtain ⟨-, toStop, toEnd⟩ := offset_le_readPast stop skipped pair.closePattern inner
  have ended := Nat.le_of_add_right_le inside
  have skippedInside := Nat.le_trans toEnd ended
  cases found : stop.length? (inner.skipUntil stop).rest with
  | none =>
    have empty := Cursor.rest_skipUntil_eq_nil found
    simp only [readPast] at closed
    rw [Cursor.rest_skipUntil_of_eq_nil _ (Cursor.rest_skip_of_eq_nil _ empty),
      closePattern_nil] at closed
    contradiction
  | some m =>
    have first : (inner.upTo k).takeUntil stop = _ :=
      Cursor.takeUntil_upTo (Nat.le_trans toStop skippedInside)
        (Cursor.isSome_upTo found (stopped m found))
    have second : (inner.upTo k).skipUntil stop = (inner.skipUntil stop).upTo k :=
      congrArg Prod.snd first
    simp only [readPast] at closed inside ended
    simp only [readPast, first, second]
    rw [Cursor.skip_upTo skippedInside,
      Cursor.skipUntil_upTo ended (Cursor.isSome_upTo closed inside)]

theorem offset_skip_of_eq_some {cursor : Cursor} {pattern : Pattern} {m : Nat}
    (found : pattern.length? cursor.rest = some m) :
    (cursor.skip pattern).offset = cursor.offset + m := by
  simp [Cursor.skip, Cursor.take, Cursor.advance, found]

theorem rest_skip_of_eq_some {cursor : Cursor} {pattern : Pattern} {m : Nat}
    (found : pattern.length? cursor.rest = some m) :
    (cursor.skip pattern).rest = cursor.rest.drop m := by
  simp [Cursor.skip, Cursor.take, Cursor.advance, found]

theorem brace_stop_le
    (closed : pair.closePattern.length?
      (readPast pair.closeBracePattern (.closer ['}']) pair.closePattern inner).2.rest = some n)
    {m : Nat} (found : pair.closeBracePattern.length?
      (inner.skipUntil pair.closeBracePattern).rest = some m) :
    (inner.skipUntil pair.closeBracePattern).offset + m ≤
      (readPast pair.closeBracePattern (.closer ['}']) pair.closePattern inner).2.offset + n := by
  obtain ⟨blanks, rest, whole, allBlank, rfl⟩ := Pattern.closerLength?_eq_some found
  -- What ended the value is a brace with the closing delimiter behind it.
  have brace : (Pattern.closer ['}']).length? (inner.skipUntil pair.closeBracePattern).rest =
      some (blanks.length + 1) := by
    rw [whole, show blanks ++ '}' :: pair.closing ++ rest =
      blanks ++ ['}'] ++ (pair.closing ++ rest) by simp]
    refine Pattern.closerLength?_of_visible blanks _ ?_ (by simp) allBlank
    simp only [List.head?_cons, Option.some.injEq, forall_eq']
    decide
  have after : ((inner.skipUntil pair.closeBracePattern).skip (.closer ['}'])).rest =
      pair.closing ++ rest := by
    rw [rest_skip_of_eq_some brace, whole]
    simp
  have here : (pair.closePattern.length?
      ((inner.skipUntil pair.closeBracePattern).skip (.closer ['}'])).rest).isSome = true := by
    rw [after]
    exact Pattern.isSome_closerLength? pair.closing [] rest (by simp)
  obtain ⟨spaces, -, -, -, rfl⟩ := Pattern.closerLength?_eq_some closed
  simp only [readPast]
  rw [Cursor.skipUntil_of_isSome here, offset_skip_of_eq_some brace]
  simp only [List.length_cons]
  omega

theorem readValue_upTo {sigil : List Char}
    (closed : pair.closePattern.length? (readValue pair sigil inner).2.rest = some n)
    (inside : (readValue pair sigil inner).2.offset + n ≤ k) :
    readValue pair sigil (inner.upTo k) =
      ((readValue pair sigil inner).1, (readValue pair sigil inner).2.upTo k) := by
  by_cases isEquals : sigil = ['=']
  · subst isEquals
    simp only [readValue_equals] at closed inside ⊢
    apply readPast_upTo closed inside
    intro m found
    have steps := offset_le_readPast (.closer ['=']) (.closer ['=']) pair.closePattern inner
    rw [offset_skip_of_eq_some found] at steps
    omega
  by_cases isBrace : sigil = ['{']
  · subst isBrace
    simp only [readValue_brace] at closed inside ⊢
    apply readPast_upTo closed inside
    intro m found
    exact Nat.le_trans (brace_stop_le closed found) inside
  simp only [readValue_plain pair _ isEquals isBrace] at closed inside ⊢
  exact Cursor.takeUntil_upTo (Nat.le_of_add_right_le inside) (Cursor.isSome_upTo closed inside)

def tagSigil (pair : Delimiters) (text : List Char) : List Char × Cursor :=
  ((Cursor.start text).skip pair.openPattern).take .sigil

def tagBody (pair : Delimiters) (text : List Char) : List Char × Cursor :=
  readValue pair (tagSigil pair text).1 ((tagSigil pair text).2.skip .blanks)

theorem readTag?_eq_map (pair : Delimiters) (text : List Char) :
    readTag? pair text = (pair.closePattern.length? (tagBody pair text).2.rest).map fun n =>
      ⟨((tagSigil pair text).1.head?.map Kind.ofSigil).getD .escaped, (tagBody pair text).1,
        (tagBody pair text).2.offset + n⟩ := by
  simp only [readTag?, tagBody, tagSigil]
  split <;> simp_all

theorem offset_le_tagBody (pair : Delimiters) (text : List Char) :
    ((Cursor.start text).skip pair.openPattern).offset ≤ (tagSigil pair text).2.offset ∧
      (tagSigil pair text).2.offset ≤ ((tagSigil pair text).2.skip .blanks).offset ∧
      ((tagSigil pair text).2.skip .blanks).offset ≤ (tagBody pair text).2.offset :=
  ⟨Cursor.offset_le_take _ _, Cursor.offset_le_take _ _, offset_le_readValue _ _ _⟩

theorem readTag?_take {text : List Char} {tag : Tag} (found : readTag? pair text = some tag)
    (inside : tag.length ≤ k) : readTag? pair (text.take k) = some tag := by
  rw [readTag?_eq_map, Option.map_eq_some_iff] at found
  obtain ⟨n, closed, rfl⟩ := found
  replace inside : (tagBody pair text).2.offset + n ≤ k := inside
  have steps := offset_le_tagBody pair text
  have start : Cursor.start (text.take k) = (Cursor.start text).upTo k := rfl
  have sigil : tagSigil pair (text.take k) =
      ((tagSigil pair text).1, (tagSigil pair text).2.upTo k) := by
    simp only [tagSigil] at steps ⊢
    rw [start, Cursor.skip_upTo (by omega), Cursor.take_upTo (by omega)]
  have body : tagBody pair (text.take k) =
      ((tagBody pair text).1, (tagBody pair text).2.upTo k) := by
    simp only [tagBody] at steps closed inside ⊢
    rw [sigil]
    simp only
    rw [Cursor.skip_upTo (by omega), readValue_upTo closed inside]
  have bound : n ≤ k - (tagBody pair text).2.offset := by omega
  rw [readTag?_eq_map, sigil, body]
  simp [Cursor.upTo, Pattern.length?_take closed bound]

theorem opening_length_lt_of_readTag? {text : List Char} {tag : Tag}
    (found : readTag? pair text = some tag) (opened : pair.opening.isPrefixOf text = true) :
    pair.opening.length < tag.length := by
  rw [readTag?_eq_map, Option.map_eq_some_iff] at found
  obtain ⟨n, closed, rfl⟩ := found
  have steps := offset_le_tagBody pair text
  have first : pair.opening.length ≤ ((Cursor.start text).skip pair.openPattern).offset := by
    simp [Cursor.skip, Cursor.take, Cursor.advance, Cursor.start, Delimiters.openPattern,
      Pattern.length?, opened]
  obtain ⟨blanks, -, -, -, rfl⟩ := Pattern.closerLength?_eq_some closed
  -- The opening delimiter is skipped first, and the closing one is not empty.
  have closing := List.length_pos_iff.2 pair.closing_ne_nil
  change pair.opening.length < (tagBody pair text).2.offset + (blanks.length + pair.closing.length)
  omega

end Tags

end Mustache
