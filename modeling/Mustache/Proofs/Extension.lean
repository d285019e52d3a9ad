import Mustache.Proofs.TagText

set_option autoImplicit false

namespace Mustache

namespace Delimiters

def Unblank (pair : Delimiters) : Prop :=
  (∀ c ∈ pair.opening, isBlank c = false) ∧ ∀ c ∈ pair.closing, isBlank c = false

instance (pair : Delimiters) : Decidable pair.Unblank :=
  -- A search of the lists, not of all characters.
  @instDecidableAnd _ _ (List.decidableBAll _ pair.opening) (List.decidableBAll _ pair.closing)

def ClearOf (pair : Delimiters) (text : List Char) : Prop :=
  ∀ front back, pair.opening = front ++ back → front ≠ [] → back ≠ [] → ¬ front <:+ text

theorem ClearOf.suffix {pair : Delimiters} {text rest : List Char} (clear : pair.ClearOf text)
    (ends : rest <:+ text) : pair.ClearOf rest :=
  fun front back split begins goesOn overlap =>
    clear front back split begins goesOn (overlap.trans ends)

theorem ClearOf.not_prefix {pair : Delimiters} {text : List Char} (clear : pair.ClearOf text)
    (nonempty : text ≠ []) (plain : ¬ pair.opening <+: text) (more : List Char) :
    ¬ pair.opening <+: text ++ more := by
  intro opens
  rcases Nat.le_total pair.opening.length text.length with short | long
  · exact plain (List.prefix_of_prefix_length_le opens (List.prefix_append text more) short)
  · obtain ⟨back, split⟩ :=
      List.prefix_of_prefix_length_le (List.prefix_append text more) opens long
    refine clear text back split.symm nonempty ?_ (List.suffix_refl text)
    rintro rfl
    exact plain (by simp [← split])

end Delimiters

namespace Pattern

variable {literal text : List Char} {n : Nat}

theorem closerLength?_append (visible : ∀ c, literal.head? = some c → isBlank c = false)
    (nonempty : literal ≠ []) (found : closerLength? literal text = some n) (more : List Char) :
    closerLength? literal (text ++ more) = some n := by
  obtain ⟨blanks, rest, rfl, allBlank, rfl⟩ := closerLength?_eq_some found
  rw [List.append_assoc]
  exact closerLength?_of_visible blanks (rest ++ more) visible nonempty allBlank

theorem closerLength?_append_eq_none {front : List Char}
    (visible : ∀ c, literal.head? = some c → isBlank c = false) (nonempty : literal ≠ [])
    (here : (closerLength? literal text).isSome = true)
    (missed : closerLength? literal (front ++ text) = none) (more : List Char) :
    closerLength? literal (front ++ text ++ more) = none := by
  cases found : closerLength? literal (front ++ text ++ more) with
  | none => rfl
  | some n =>
    obtain ⟨blanks, rest, whole, allBlank, size⟩ := closerLength?_eq_some found
    by_cases inside : n ≤ (front ++ text).length
    · have cut := closerLength?_take found inside
      rw [List.take_left, missed] at cut
      contradiction
    -- The blanks would reach beyond the place where the literal is known to stand.
    · obtain ⟨m, there⟩ := Option.isSome_iff_exists.1 here
      obtain ⟨spaces, after, rfl, -, -⟩ := closerLength?_eq_some there
      obtain ⟨c, tail, rfl⟩ := List.exists_cons_of_ne_nil nonempty
      simp only [List.length_append, List.length_cons] at inside size
      have place : (blanks ++ (c :: tail) ++ rest)[front.length + spaces.length]? = some c := by
        rw [← whole]
        simp
      rw [List.append_assoc, List.getElem?_append_left (by omega)] at place
      have blank := allBlank c (List.mem_of_getElem? place)
      rw [visible c rfl] at blank
      contradiction

theorem distance_append (visible : ∀ c, literal.head? = some c → isBlank c = false)
    (nonempty : literal ≠ [])
    (found : ((closer literal).length? (text.drop ((closer literal).distance text))).isSome = true)
    (more : List Char) :
    (closer literal).distance (text ++ more) = (closer literal).distance text := by
  have bound := (closer literal).distance_le text
  refine distance_eq (fun m early => ?_) ?_
  · have missed := length?_drop_of_lt_distance early
    have split : text.drop m = (text.drop m).take ((closer literal).distance text - m) ++
        text.drop ((closer literal).distance text) := by
      have whole := List.take_append_drop ((closer literal).distance text - m) (text.drop m)
      rw [List.drop_drop, Nat.add_sub_cancel' (by omega)] at whole
      exact whole.symm
    rw [List.drop_append_of_le_length (by omega), split]
    rw [split] at missed
    exact closerLength?_append_eq_none visible nonempty found missed more
  · obtain ⟨n, there⟩ := Option.isSome_iff_exists.1 found
    have same : (closer literal).length? (text.drop ((closer literal).distance text) ++ more) =
        some n := closerLength?_append visible nonempty there more
    rw [List.drop_append_of_le_length bound, same]
    rfl

theorem blankRun_append (stops : blankRun text < text.length) (more : List Char) :
    blankRun (text ++ more) = blankRun text := by
  unfold blankRun at stops ⊢
  rw [List.takeWhile_append, if_neg (by omega)]

end Pattern

namespace Cursor

variable {cursor : Cursor} {pattern : Pattern} {literal : List Char}

def followedBy (more : List Char) (cursor : Cursor) : Cursor :=
  ⟨cursor.offset, cursor.rest ++ more⟩

theorem take_followedBy {more : List Char}
    (same : pattern.length? (cursor.rest ++ more) = pattern.length? cursor.rest) :
    (cursor.followedBy more).take pattern =
      ((cursor.take pattern).1, (cursor.take pattern).2.followedBy more) := by
  have bound : (pattern.length? cursor.rest).getD 0 ≤ cursor.rest.length := by
    cases found : pattern.length? cursor.rest with
    | none => exact Nat.zero_le _
    | some n => exact Pattern.length?_le found
  simp only [take, advance, followedBy, same]
  rw [List.take_append_of_le_length bound, List.drop_append_of_le_length bound]

theorem takeUntil_followedBy {more : List Char}
    (same : pattern.distance (cursor.rest ++ more) = pattern.distance cursor.rest) :
    (cursor.followedBy more).takeUntil pattern =
      ((cursor.takeUntil pattern).1, (cursor.takeUntil pattern).2.followedBy more) := by
  have bound := pattern.distance_le cursor.rest
  simp only [takeUntil, advance, followedBy, same]
  rw [List.take_append_of_le_length bound, List.drop_append_of_le_length bound]

theorem take_sigil_followedBy (goesOn : cursor.rest ≠ []) (more : List Char) :
    (cursor.followedBy more).take .sigil =
      ((cursor.take .sigil).1, (cursor.take .sigil).2.followedBy more) := by
  apply take_followedBy
  obtain ⟨c, rest, whole⟩ := List.exists_cons_of_ne_nil goesOn
  rw [whole]
  rfl

theorem skip_blanks_followedBy (goesOn : (cursor.skip .blanks).rest ≠ []) (more : List Char) :
    (cursor.followedBy more).skip .blanks = (cursor.skip .blanks).followedBy more := by
  have stops : Pattern.blankRun cursor.rest < cursor.rest.length := by
    simpa [skip, take, advance, Pattern.length?] using goesOn
  refine congrArg Prod.snd (take_followedBy ?_)
  simp only [Pattern.length?, Pattern.blankRun_append stops]

theorem skip_opener_followedBy (opened : literal.isPrefixOf cursor.rest = true)
    (goesOn : (cursor.skip (.opener literal)).rest ≠ []) (more : List Char) :
    (cursor.followedBy more).skip (.opener literal) =
      (cursor.skip (.opener literal)).followedBy more := by
  obtain ⟨rest, whole⟩ := List.isPrefixOf_iff_prefix.1 opened
  have stops : Pattern.blankRun rest < rest.length := by
    have left := List.length_pos_iff.2 goesOn
    simp only [skip, take, advance, Pattern.length?, opened, if_true, Option.getD_some,
      List.length_drop] at left
    rw [← whole, List.drop_left, List.length_append] at left
    omega
  refine congrArg Prod.snd (take_followedBy ?_)
  simp only [Pattern.length?, ← whole, List.append_assoc, List.drop_left,
    Pattern.blankRun_append stops]
  simp

theorem takeUntil_closer_followedBy (visible : ∀ c, literal.head? = some c → isBlank c = false)
    (nonempty : literal ≠ [])
    (found : ((Pattern.closer literal).length?
      (cursor.skipUntil (.closer literal)).rest).isSome = true) (more : List Char) :
    (cursor.followedBy more).takeUntil (.closer literal) =
      ((cursor.takeUntil (.closer literal)).1,
        (cursor.takeUntil (.closer literal)).2.followedBy more) :=
  takeUntil_followedBy (Pattern.distance_append visible nonempty found more)

theorem skip_closer_followedBy (visible : ∀ c, literal.head? = some c → isBlank c = false)
    (nonempty : literal ≠ [])
    (found : ((Pattern.closer literal).length? cursor.rest).isSome = true) (more : List Char) :
    (cursor.followedBy more).skip (.closer literal) =
      (cursor.skip (.closer literal)).followedBy more := by
  obtain ⟨n, here⟩ := Option.isSome_iff_exists.1 found
  refine congrArg Prod.snd (take_followedBy ?_)
  rw [here]
  exact Pattern.closerLength?_append visible nonempty here more

theorem rest_ne_nil_of_skip (goesOn : (cursor.skip pattern).rest ≠ []) : cursor.rest ≠ [] :=
  fun empty => goesOn (rest_skip_of_eq_nil pattern empty)

end Cursor

section Tags

variable {pair : Delimiters} {inner : Cursor} {n : Nat}

theorem isBlank_equals : isBlank '=' = false := by decide

theorem isBlank_brace : isBlank '}' = false := by decide

theorem closePattern_ne_nil {text : List Char} (closed : pair.closePattern.length? text = some n) :
    text ≠ [] := by
  rintro rfl
  rw [closePattern_nil] at closed
  contradiction

theorem readPast_followedBy {stop skipped : List Char} (unblank : pair.Unblank)
    (visibleStop : ∀ c, stop.head? = some c → isBlank c = false) (nonemptyStop : stop ≠ [])
    (visibleSkipped : ∀ c, skipped.head? = some c → isBlank c = false)
    (nonemptySkipped : skipped ≠ [])
    (within : ∀ text, ((Pattern.closer stop).length? text).isSome = true →
      ((Pattern.closer skipped).length? text).isSome = true)
    (closed : pair.closePattern.length?
      (readPast (.closer stop) (.closer skipped) pair.closePattern inner).2.rest = some n)
    (more : List Char) :
    readPast (.closer stop) (.closer skipped) pair.closePattern (inner.followedBy more) =
      ((readPast (.closer stop) (.closer skipped) pair.closePattern inner).1,
        (readPast (.closer stop) (.closer skipped) pair.closePattern inner).2.followedBy more) := by
  have visible : ∀ c, pair.closing.head? = some c → isBlank c = false :=
    fun c first => unblank.2 c (List.mem_of_head? first)
  have stopped : ((Pattern.closer stop).length?
      (inner.skipUntil (.closer stop)).rest).isSome = true := by
    rw [Option.isSome_iff_ne_none]
    intro missed
    have empty := Cursor.rest_skipUntil_eq_nil missed
    refine closePattern_ne_nil closed ?_
    exact Cursor.rest_skipUntil_of_eq_nil _ (Cursor.rest_skip_of_eq_nil _ empty)
  have first := Cursor.takeUntil_closer_followedBy visibleStop nonemptyStop stopped more
  have second : (inner.followedBy more).skipUntil (.closer stop) =
      (inner.skipUntil (.closer stop)).followedBy more := congrArg Prod.snd first
  have third := Cursor.takeUntil_closer_followedBy visible pair.closing_ne_nil
    (Option.isSome_iff_exists.2 ⟨n, closed⟩) more
  simp only [readPast, first, second]
  rw [Cursor.skip_closer_followedBy visibleSkipped nonemptySkipped (within _ stopped)]
  exact congrArg (fun cursor => ((inner.takeUntil (.closer stop)).1, cursor))
    (congrArg Prod.snd third)

theorem readValue_followedBy {sigil : List Char} (unblank : pair.Unblank)
    (closed : pair.closePattern.length? (readValue pair sigil inner).2.rest = some n)
    (more : List Char) :
    readValue pair sigil (inner.followedBy more) =
      ((readValue pair sigil inner).1, (readValue pair sigil inner).2.followedBy more) := by
  by_cases isEquals : sigil = ['=']
  · subst isEquals
    simp only [readValue_equals] at closed ⊢
    exact readPast_followedBy unblank (by simp [isBlank_equals]) (by simp)
      (by simp [isBlank_equals]) (by simp) (fun _ found => found) closed more
  by_cases isBrace : sigil = ['{']
  · subst isBrace
    simp only [readValue_brace] at closed ⊢
    refine readPast_followedBy unblank (by simp [isBlank_brace]) (by simp)
      (by simp [isBlank_brace]) (by simp) ?_ closed more
    -- Where the brace stands with the closing delimiter behind it, the brace alone is found too.
    intro text found
    obtain ⟨m, there⟩ := Option.isSome_iff_exists.1 found
    obtain ⟨blanks, rest, rfl, allBlank, -⟩ := Pattern.closerLength?_eq_some there
    have brace := Pattern.isSome_closerLength? ['}'] blanks (pair.closing ++ rest) allBlank
    simpa [Pattern.length?] using brace
  simp only [readValue_plain pair _ isEquals isBrace] at closed ⊢
  exact Cursor.takeUntil_closer_followedBy (fun c first => unblank.2 c (List.mem_of_head? first))
    pair.closing_ne_nil (Option.isSome_iff_exists.2 ⟨n, closed⟩) more

theorem rest_ne_nil_of_readValue {sigil : List Char}
    (goesOn : (readValue pair sigil inner).2.rest ≠ []) : inner.rest ≠ [] := by
  intro empty
  apply goesOn
  by_cases isEquals : sigil = ['=']
  · subst isEquals
    exact Cursor.rest_skipUntil_of_eq_nil _
      (Cursor.rest_skip_of_eq_nil _ (Cursor.rest_skipUntil_of_eq_nil _ empty))
  by_cases isBrace : sigil = ['{']
  · subst isBrace
    exact Cursor.rest_skipUntil_of_eq_nil _
      (Cursor.rest_skip_of_eq_nil _ (Cursor.rest_skipUntil_of_eq_nil _ empty))
  rw [readValue_plain pair inner isEquals isBrace]
  exact Cursor.rest_skipUntil_of_eq_nil _ empty

theorem readTag?_append {text : List Char} {tag : Tag} (unblank : pair.Unblank)
    (opened : pair.opening.isPrefixOf text = true) (found : readTag? pair text = some tag)
    (more : List Char) : readTag? pair (text ++ more) = some tag := by
  rw [readTag?_eq_map, Option.map_eq_some_iff] at found
  obtain ⟨n, closed, rfl⟩ := found
  -- The closing delimiter is still ahead at every step, so no step reaches the end of the text.
  have afterBlanks := rest_ne_nil_of_readValue (closePattern_ne_nil closed)
  have afterSigil : (((Cursor.start text).skip pair.openPattern).skip .sigil).rest ≠ [] :=
    Cursor.rest_ne_nil_of_skip afterBlanks
  have afterOpening := Cursor.rest_ne_nil_of_skip afterSigil
  have sigil : tagSigil pair (text ++ more) =
      ((tagSigil pair text).1, (tagSigil pair text).2.followedBy more) := by
    have skipped : (Cursor.start (text ++ more)).skip pair.openPattern =
        ((Cursor.start text).skip pair.openPattern).followedBy more :=
      Cursor.skip_opener_followedBy opened afterOpening more
    rw [tagSigil, skipped]
    exact Cursor.take_sigil_followedBy afterOpening more
  have body : tagBody pair (text ++ more) =
      ((tagBody pair text).1, (tagBody pair text).2.followedBy more) := by
    rw [tagBody, sigil]
    dsimp only
    rw [Cursor.skip_blanks_followedBy afterBlanks, readValue_followedBy unblank closed]
    rfl
  have visible : ∀ c, pair.closing.head? = some c → isBlank c = false :=
    fun c first => unblank.2 c (List.mem_of_head? first)
  have stillClosed : pair.closePattern.length? ((tagBody pair text).2.followedBy more).rest =
      some n := Pattern.closerLength?_append visible pair.closing_ne_nil closed more
  rw [readTag?_eq_map, sigil, body]
  dsimp only
  rw [stillClosed]
  rfl

end Tags

section Readers

variable {first last : Reader} {piece : Piece} {pieces : List Piece}

def Reader.followedBy (more : List Char) (reader : Reader) : Reader :=
  { reader with rest := reader.rest ++ more }

theorem Reads.followedBy (step : Reads first piece last) (unblank : first.pair.Unblank)
    (clear : first.pair.ClearOf first.rest) (more : List Char) :
    Reads (first.followedBy more) piece (last.followedBy more) := by
  cases step with
  | text plain =>
    rw [← Bool.not_eq_true, List.isPrefixOf_iff_prefix] at plain
    have goesOn := clear.not_prefix (List.cons_ne_nil _ _) plain more
    rw [← List.isPrefixOf_iff_prefix, Bool.not_eq_true] at goesOn
    exact .text goesOn
  | @tag pair next offset source found opened read after =>
    have bound := length_le_of_readTag? read
    have stillOpened : pair.opening.isPrefixOf (source ++ more) = true := by
      rw [List.isPrefixOf_iff_prefix] at opened ⊢
      exact opened.trans (List.prefix_append source more)
    have rest : source.drop found.length ++ more = (source ++ more).drop found.length :=
      (List.drop_append_of_le_length bound).symm
    simp only [Reader.followedBy, rest]
    exact .tag stillOpened (readTag?_append unblank opened read more) after

theorem Reads.rest_suffix (step : Reads first piece last) : last.rest <:+ first.rest := by
  rw [step.offsets.2.2.2.2]
  exact List.drop_suffix _ _

theorem ReadsAll.followedBy {good : Delimiters → Prop} (run : ReadsAll first pieces last)
    (starts : good first.pair)
    (keeps : ∀ {first last : Reader} {piece : Piece}, piece ∈ pieces → Reads first piece last →
      good first.pair → good last.pair)
    (unblank : ∀ pair, good pair → pair.Unblank)
    (clear : ∀ pair, good pair → pair.ClearOf first.rest) (more : List Char) :
    ReadsAll (first.followedBy more) pieces (last.followedBy more) := by
  induction run with
  | nil reader => exact .nil _
  | cons step run ih =>
    have goesOn := step.followedBy (unblank _ starts) (clear _ starts) more
    have next := keeps (by simp) step starts
    refine .cons goesOn (ih next (fun member => keeps (by simp [member])) ?_)
    exact fun pair isGood => (clear pair isGood).suffix step.rest_suffix

theorem scan_append_of_clear {good : Delimiters → Prop} {text : List Char}
    {pair inForce : Delimiters} (complete : (scan pair text).ending = .complete inForce)
    (starts : good pair)
    (keeps : ∀ {first last : Reader} {piece : Piece}, piece ∈ (scan pair text).pieces →
      Reads first piece last → good first.pair → good last.pair)
    (unblank : ∀ pair, good pair → pair.Unblank) (clear : ∀ pair, good pair → pair.ClearOf text)
    (more : List Char) :
    scan pair (text ++ more) =
      ((scan inForce more).moved text.length).prependAll (scan pair text).pieces := by
  have scanned := ((readsAll_scan complete).followedBy starts keeps unblank clear more).scan
  have moved := scanFrom_add inForce 0 0 text.length more
  rw [Nat.zero_add] at moved
  simp only [Reader.scan, Reader.followedBy, List.nil_append, moved] at scanned
  exact scanned

end Readers

end Mustache
