import Mustache.Proofs.Reading

set_option autoImplicit false

namespace Mustache

def OnlyAtEnd (word text : List Char) : Prop :=
  ∀ k < text.length, ¬ word <+: (text ++ word).drop k

def VisibleEnds (text : List Char) : Prop :=
  text.head?.any isBlank = false ∧ text.getLast?.any isBlank = false

instance (word text : List Char) : Decidable (OnlyAtEnd word text) :=
  Nat.decidableBallLT text.length fun k _ => ¬ word <+: (text ++ word).drop k

instance (text : List Char) : Decidable (VisibleEnds text) :=
  inferInstanceAs (Decidable (_ ∧ _))

section Patterns

variable {word text : List Char} {k : Nat}

theorem VisibleEnds.head (ends : VisibleEnds text) :
    ∀ c, text.head? = some c → isBlank c = false := by
  intro c first
  simpa [first] using ends.1

theorem OnlyAtEnd.not_prefix (only : OnlyAtEnd word text) (early : k < text.length)
    (rest : List Char) : ¬ word <+: (text ++ word ++ rest).drop k := by
  intro occurs
  apply only k early
  have room : k ≤ (text ++ word).length := by simp only [List.length_append]; omega
  -- An earlier occurrence ends before the word does, so what follows cannot complete it.
  rw [List.drop_append_of_le_length room] at occurs
  apply List.prefix_of_prefix_length_le occurs (List.prefix_append _ rest)
  simp only [List.length_drop, List.length_append]
  omega

theorem Pattern.distance_eq {pattern : Pattern}
    (before : ∀ m < k, pattern.length? (text.drop m) = none)
    (here : (pattern.length? (text.drop k)).isSome = true) : pattern.distance text = k := by
  induction k generalizing text with
  | zero => exact distance_eq_zero here
  | succ k ih =>
    cases text with
    | nil =>
      have first := before 0 (Nat.succ_pos k)
      rw [List.drop_nil] at here first
      simp [first] at here
    | cons c rest =>
      have missed : pattern.length? (c :: rest) = none := before 0 (Nat.succ_pos k)
      rw [distance_cons_of_none missed, ih (fun m early => before (m + 1) (by omega)) here]

theorem closerLength?_eq_none {spaces : List Char} (only : OnlyAtEnd word (text ++ spaces))
    (visible : text.getLast?.any isBlank = false) (early : k < text.length) (rest : List Char) :
    Pattern.closerLength? word ((text ++ spaces ++ word ++ rest).drop k) = none := by
  cases found : Pattern.closerLength? word ((text ++ spaces ++ word ++ rest).drop k) with
  | none => rfl
  | some n =>
    obtain ⟨blanks, after, whole, allBlank, -⟩ := Pattern.closerLength?_eq_some found
    -- The word stands behind the blanks: inside the text, or the blanks hold its last visible
    -- character.
    by_cases inside : k + blanks.length < (text ++ spaces).length
    · refine absurd ?_ (only.not_prefix inside rest)
      rw [← List.drop_drop, whole, List.append_assoc, List.drop_left]
      exact List.prefix_append word after
    · have nonempty : text ≠ [] := List.ne_nil_of_length_pos (by omega)
      obtain ⟨last, isLast⟩ : ∃ c, text.getLast? = some c :=
        ⟨_, List.getLast?_eq_some_getLast nonempty⟩
      have notBlank : isBlank last = false := by simpa [isLast] using visible
      have place : (text ++ spaces ++ word ++ rest)[text.length - 1]? = some last := by
        rw [List.append_assoc, List.append_assoc, List.getElem?_append_left (by omega),
          ← List.getLast?_eq_getElem?, isLast]
      have shifted : ((text ++ spaces ++ word ++ rest).drop k)[text.length - 1 - k]? =
          some last := by
        rw [List.getElem?_drop, ← place]
        congr 1
        omega
      simp only [List.length_append] at inside
      rw [whole, List.append_assoc, List.getElem?_append_left (by omega)] at shifted
      rw [allBlank last (List.mem_of_getElem? shifted)] at notBlank
      contradiction

theorem Cursor.takeUntil_closer_behind {spaces : List Char} (only : OnlyAtEnd word (text ++ spaces))
    (visible : text.getLast?.any isBlank = false) (allBlank : ∀ c ∈ spaces, isBlank c = true)
    (offset : Nat) (rest : List Char) :
    (Cursor.mk offset (text ++ spaces ++ word ++ rest)).takeUntil (.closer word) =
      (text, ⟨offset + text.length, spaces ++ word ++ rest⟩) := by
  have size : (Pattern.closer word).distance (text ++ spaces ++ word ++ rest) = text.length := by
    refine Pattern.distance_eq (fun m early => closerLength?_eq_none only visible early rest) ?_
    rw [List.append_assoc, List.append_assoc, List.drop_left, ← List.append_assoc]
    exact Pattern.isSome_closerLength? word spaces rest allBlank
  simp only [takeUntil, size, advance]
  simp

theorem Cursor.takeUntil_closer (only : OnlyAtEnd word text) (ends : VisibleEnds text)
    (offset : Nat) (rest : List Char) :
    (Cursor.mk offset (text ++ word ++ rest)).takeUntil (.closer word) =
      (text, ⟨offset + text.length, word ++ rest⟩) := by
  rw [← List.append_nil text] at only
  simpa using takeUntil_closer_behind only ends.2 (by simp) offset rest

theorem blankRun_of_visible (visible : ∀ c, text.head? = some c → isBlank c = false) :
    Pattern.blankRun text = 0 := by
  cases text with
  | nil => rfl
  | cons c rest =>
    have here := visible c rfl
    simp [Pattern.blankRun, here]

theorem Cursor.skip_blanks (visible : ∀ c, text.head? = some c → isBlank c = false)
    (offset : Nat) : (Cursor.mk offset text).skip .blanks = ⟨offset, text⟩ := by
  simp [skip, take, advance, Pattern.length?, blankRun_of_visible visible]

theorem Cursor.skip_opener (visible : ∀ c, text.head? = some c → isBlank c = false)
    (word : List Char) :
    (Cursor.start (word ++ text)).skip (.opener word) = ⟨word.length, text⟩ := by
  have fits : word.isPrefixOf (word ++ text) = true := by simp
  simp [skip, take, advance, start, Pattern.length?, fits, blankRun_of_visible visible]

end Patterns

def Kind.mark : Kind → List Char
  | .text | .escaped => []
  -- An unescaped variable may stand between braces instead.
  | .unescaped => ['&']
  | .sectionTag => ['#']
  | .invertedTag => ['^']
  | .closeTag => ['/']
  | .partialTag => ['>']
  | .comment => ['!']
  | .delimiterTag => ['=']

def tagText (pair : Delimiters) (sigil value : List Char) : List Char :=
  pair.opening ++ sigil ++ value ++ pair.closing

def braceText (pair : Delimiters) (value : List Char) : List Char :=
  pair.opening ++ '{' :: value ++ '}' :: pair.closing

structure TagValue (pair : Delimiters) (value : List Char) : Prop where
  nonempty : value ≠ []
  ends : VisibleEnds value
  closes : OnlyAtEnd pair.closing value

theorem tagValue_iff {pair : Delimiters} {value : List Char} :
    TagValue pair value ↔ value ≠ [] ∧ VisibleEnds value ∧ OnlyAtEnd pair.closing value :=
  ⟨fun isValue => ⟨isValue.nonempty, isValue.ends, isValue.closes⟩,
    fun ⟨nonempty, ends, closes⟩ => ⟨nonempty, ends, closes⟩⟩

instance (pair : Delimiters) (value : List Char) : Decidable (TagValue pair value) :=
  decidable_of_iff _ tagValue_iff.symm

/-- A value that a tag of a kind can hold; without a sigil the value must not begin with one. -/
def FitsTag (pair : Delimiters) (kind : Kind) (value : List Char) : Prop :=
  match kind with
  | .text | .delimiterTag => False
  | .escaped => TagValue pair value ∧ value.head?.any (sigils.contains ·) = false
  | _ => TagValue pair value

instance (pair : Delimiters) (kind : Kind) (value : List Char) :
    Decidable (FitsTag pair kind value) :=
  match kind with
  | .text | .delimiterTag => inferInstanceAs (Decidable False)
  | .escaped => inferInstanceAs (Decidable (_ ∧ _))
  | .unescaped | .sectionTag | .invertedTag | .closeTag | .partialTag | .comment =>
      inferInstanceAs (Decidable (TagValue pair value))

section Tags

variable {pair : Delimiters} {sigil value rest : List Char}

theorem closePattern_closing (visible : ∀ c ∈ pair.closing, isBlank c = false)
    (rest : List Char) :
    pair.closePattern.length? (pair.closing ++ rest) = some pair.closing.length := by
  have head : ∀ c, pair.closing.head? = some c → isBlank c = false :=
    fun c first => visible c (List.mem_of_head? first)
  have found := Pattern.closerLength?_of_visible [] rest head pair.closing_ne_nil (by simp)
  rw [List.length_nil, Nat.zero_add] at found
  exact found

theorem TagValue.head?_append (isValue : TagValue pair value) (after : List Char) :
    (value ++ after).head? = value.head? := by
  obtain ⟨c, more, rfl⟩ := List.exists_cons_of_ne_nil isValue.nonempty
  rfl

theorem TagValue.skip_blanks (isValue : TagValue pair value) (offset : Nat) (after : List Char) :
    (Cursor.mk offset (value ++ after)).skip .blanks = ⟨offset, value ++ after⟩ := by
  apply Cursor.skip_blanks
  rw [isValue.head?_append]
  exact isValue.ends.head

theorem Cursor.skip_closer_brace (offset : Nat) (text : List Char) :
    (Cursor.mk offset ('}' :: text)).skip (.closer ['}']) = ⟨offset + 1, text⟩ := by
  have visible : ∀ c, ['}'].head? = some c → isBlank c = false := by
    simpa using show isBlank '}' = false by decide
  have found : (Pattern.closer ['}']).length? ('}' :: text) = some 1 :=
    Pattern.closerLength?_of_visible [] text visible (by simp) (by simp)
  simp [skip, take, advance, found]

theorem isBlank_of_mem_sigils {c : Char} (isSigil : c ∈ sigils) : isBlank c = false := by
  have allVisible : (sigils.all fun c => !isBlank c) = true := by decide
  simpa using List.all_eq_true.1 allVisible c isSigil

theorem tagSigil_sigil (pair : Delimiters) {c : Char} (isSigil : c ∈ sigils) (text : List Char) :
    tagSigil pair (pair.opening ++ c :: text) = ([c], ⟨pair.opening.length + 1, text⟩) := by
  have visible : ∀ d, (c :: text).head? = some d → isBlank d = false := by
    simpa using isBlank_of_mem_sigils isSigil
  rw [tagSigil, Delimiters.openPattern, Cursor.skip_opener visible]
  simp [Cursor.take, Cursor.advance, Pattern.length?, isSigil]

theorem tagSigil_none {text : List Char}
    (visible : ∀ c, text.head? = some c → isBlank c = false)
    (plain : ∀ c, text.head? = some c → c ∉ sigils) :
    tagSigil pair (pair.opening ++ text) = ([], ⟨pair.opening.length, text⟩) := by
  rw [tagSigil, Delimiters.openPattern, Cursor.skip_opener visible]
  cases text with
  | nil => simp [Cursor.take, Cursor.advance, Pattern.length?]
  | cons c rest =>
    have notSigil := plain c rfl
    simp [Cursor.take, Cursor.advance, Pattern.length?, notSigil]

theorem readTag?_padded {text front back : List Char} {offset : Nat}
    (visible : ∀ c ∈ pair.closing, isBlank c = false) (ends : VisibleEnds value)
    (only : OnlyAtEnd pair.closing (value ++ back)) (bare : value = [] → back = [])
    (blankFront : ∀ c ∈ front, isBlank c = true) (blankBack : ∀ c ∈ back, isBlank c = true)
    (marked : tagSigil pair text =
      (sigil, ⟨offset, front ++ (value ++ back ++ pair.closing ++ rest)⟩))
    (notEquals : sigil ≠ ['=']) (notBrace : sigil ≠ ['{']) :
    readTag? pair text = some ⟨(sigil.head?.map Kind.ofSigil).getD .escaped, value,
      offset + front.length + value.length + (back.length + pair.closing.length)⟩ := by
  have first : ∀ c, pair.closing.head? = some c → isBlank c = false :=
    fun c head => visible c (List.mem_of_head? head)
  have begins : ∀ c, (value ++ back ++ pair.closing ++ rest).head? = some c →
      isBlank c = false := by
    cases value with
    | nil =>
      obtain ⟨d, closing, closes⟩ := List.exists_cons_of_ne_nil pair.closing_ne_nil
      rw [bare rfl]
      rw [closes] at first ⊢
      exact first
    | cons d value => exact ends.head
  have skipped : (Cursor.mk offset (front ++ (value ++ back ++ pair.closing ++ rest))).skip
      .blanks = ⟨offset + front.length, value ++ back ++ pair.closing ++ rest⟩ := by
    have run : Pattern.blankRun (front ++ (value ++ back ++ pair.closing ++ rest)) =
        front.length := by
      have stops := blankRun_of_visible begins
      unfold Pattern.blankRun at stops ⊢
      rw [List.takeWhile_append_of_pos blankFront, List.length_append, stops, Nat.add_zero]
    simp only [Cursor.skip, Cursor.take, Cursor.advance, Pattern.length?, run, Option.getD_some,
      List.drop_left]
  have body : tagBody pair text = (value,
      ⟨offset + front.length + value.length, back ++ pair.closing ++ rest⟩) := by
    rw [tagBody, marked, readValue_plain pair _ notEquals notBrace, skipped]
    exact Cursor.takeUntil_closer_behind only ends.2 blankBack _ rest
  have closed : pair.closePattern.length? (back ++ pair.closing ++ rest) =
      some (back.length + pair.closing.length) :=
    Pattern.closerLength?_of_visible back rest first pair.closing_ne_nil blankBack
  rw [readTag?_eq_map, body, marked, closed]
  rfl

theorem readTag?_of_tagSigil {text : List Char} {offset : Nat}
    (visible : ∀ c ∈ pair.closing, isBlank c = false) (isValue : TagValue pair value)
    (marked : tagSigil pair text = (sigil, ⟨offset, value ++ pair.closing ++ rest⟩))
    (notEquals : sigil ≠ ['=']) (notBrace : sigil ≠ ['{']) :
    readTag? pair text = some ⟨(sigil.head?.map Kind.ofSigil).getD .escaped, value,
      offset + value.length + pair.closing.length⟩ := by
  have only : OnlyAtEnd pair.closing (value ++ []) := by
    rw [List.append_nil]
    exact isValue.closes
  have read := @readTag?_padded pair sigil value rest text [] [] offset visible isValue.ends only
    (fun _ => rfl) (by simp) (by simp) (by simpa using marked) notEquals notBrace
  simpa using read

theorem readTag?_sigil {c : Char} (visible : ∀ c ∈ pair.closing, isBlank c = false)
    (isValue : TagValue pair value) (isSigil : c ∈ sigils) (notEquals : c ≠ '=')
    (notBrace : c ≠ '{') (rest : List Char) :
    readTag? pair (tagText pair [c] value ++ rest) =
      some ⟨Kind.ofSigil c, value, (tagText pair [c] value).length⟩ := by
  have marked := tagSigil_sigil pair isSigil (value ++ pair.closing ++ rest)
  have read := readTag?_of_tagSigil visible isValue marked (by simpa) (by simpa)
  simpa [tagText, Nat.add_assoc, Nat.add_comm 1] using read

theorem readTag?_plain (visible : ∀ c ∈ pair.closing, isBlank c = false)
    (isValue : TagValue pair value) (plain : value.head?.any (sigils.contains ·) = false)
    (rest : List Char) :
    readTag? pair (tagText pair [] value ++ rest) =
      some ⟨.escaped, value, (tagText pair [] value).length⟩ := by
  have marked : tagSigil pair (tagText pair [] value ++ rest) =
      ([], ⟨pair.opening.length, value ++ pair.closing ++ rest⟩) := by
    rw [tagText, List.append_nil, List.append_assoc, List.append_assoc, List.append_assoc]
    refine tagSigil_none ?_ ?_ <;> rw [isValue.head?_append]
    · exact isValue.ends.head
    · intro c first
      simpa [first] using plain
  have read := readTag?_of_tagSigil visible isValue marked (by simp) (by simp)
  simpa [tagText, Nat.add_assoc] using read

theorem fitsTag_of_opensBody {kind : Kind} (opens : kind.opensBody = true)
    (isValue : TagValue pair value) : FitsTag pair kind value := by
  cases kind with
  | sectionTag => exact isValue
  | invertedTag => exact isValue
  | _ => contradiction

theorem readTag?_tagText {kind : Kind} (visible : ∀ c ∈ pair.closing, isBlank c = false)
    (fits : FitsTag pair kind value) (rest : List Char) :
    readTag? pair (tagText pair kind.mark value ++ rest) =
      some ⟨kind, value, (tagText pair kind.mark value).length⟩ := by
  have sigil {c : Char} (isValue : TagValue pair value)
      (isSigil : c ∈ sigils ∧ c ≠ '=' ∧ c ≠ '{') :=
    readTag?_sigil visible isValue isSigil.1 isSigil.2.1 isSigil.2.2 rest
  cases kind with
  | text => exact False.elim fits
  | escaped => exact readTag?_plain visible fits.1 fits.2 rest
  | unescaped => exact sigil (c := '&') fits (by decide)
  | sectionTag => exact sigil (c := '#') fits (by decide)
  | invertedTag => exact sigil (c := '^') fits (by decide)
  | closeTag => exact sigil (c := '/') fits (by decide)
  | partialTag => exact sigil (c := '>') fits (by decide)
  | comment => exact sigil (c := '!') fits (by decide)
  | delimiterTag => exact False.elim fits

theorem readTag?_brace (visible : ∀ c ∈ pair.closing, isBlank c = false)
    (isValue : TagValue pair value) (closes : OnlyAtEnd ('}' :: pair.closing) value)
    (rest : List Char) :
    readTag? pair (braceText pair value ++ rest) =
      some ⟨.unescaped, value, (braceText pair value).length⟩ := by
  have whole : braceText pair value ++ rest =
      pair.opening ++ '{' :: (value ++ '}' :: pair.closing ++ rest) := by simp [braceText]
  have marked := tagSigil_sigil pair (show '{' ∈ sigils by decide)
    (value ++ '}' :: pair.closing ++ rest)
  have closed := closePattern_closing visible rest
  -- The value is read up to its brace; the brace is passed over, and the closing delimiter is next.
  have read : (Cursor.mk (pair.opening.length + 1)
      (value ++ '}' :: pair.closing ++ rest)).takeUntil pair.closeBracePattern =
      (value, ⟨pair.opening.length + 1 + value.length, '}' :: (pair.closing ++ rest)⟩) :=
    Cursor.takeUntil_closer closes isValue.ends _ rest
  have stopped : (Cursor.mk (pair.opening.length + 1)
      (value ++ '}' :: pair.closing ++ rest)).skipUntil pair.closeBracePattern =
      ⟨pair.opening.length + 1 + value.length, '}' :: (pair.closing ++ rest)⟩ :=
    congrArg Prod.snd read
  have body : tagBody pair (braceText pair value ++ rest) =
      (value, ⟨pair.opening.length + 1 + value.length + 1, pair.closing ++ rest⟩) := by
    rw [tagBody, whole, marked, readValue_brace, List.append_assoc, isValue.skip_blanks,
      ← List.append_assoc, readPast, read, stopped, Cursor.skip_closer_brace,
      Cursor.skipUntil_of_isSome]
    simp [closed]
  rw [readTag?_eq_map, body, whole, marked, closed]
  simp [braceText, Kind.ofSigil]
  omega

end Tags

end Mustache
