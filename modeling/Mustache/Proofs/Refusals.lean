import Mustache.Proofs.Reading

set_option autoImplicit false

namespace Mustache

section Scans

variable {reader : Reader} {pieces : List Piece}

theorem Reader.Stops.not_closeTag {left : List Piece} {ending : Ending}
    (stops : reader.Stops left ending) {value : String} {start stop : Nat} {inForce : Delimiters} :
    .tag .closeTag value start stop inForce ∉ left := by
  cases stops with
  | atEnd => simp
  | inTag opened unread => simp
  | atDelimiters opened read bad =>
    rw [List.mem_singleton]
    rintro same
    obtain ⟨isClose, -⟩ := Piece.tag.inj same
    simp [Tag.pairAfter, ← isClose] at bad

theorem exists_closeTag_of_mismatch {opened : List String} {mismatch : Mismatch}
    (failed : openAfterAll opened pieces = .error mismatch) :
    ∃ value stop inForce, .tag .closeTag value mismatch.offset stop inForce ∈ pieces ∧
      (mismatch.cause = .unopenedSection value ∨
        ∃ innermost, mismatch.cause = .mismatchedClose innermost value) := by
  induction pieces generalizing opened with
  | nil => cases failed
  | cons piece rest ih =>
    cases fits : openAfter opened piece with
    | ok names =>
      rw [openAfterAll, fits] at failed
      obtain ⟨value, stop, inForce, member, cause⟩ := ih failed
      exact ⟨value, stop, inForce, List.mem_cons_of_mem piece member, cause⟩
    | error other =>
      rw [openAfterAll, fits] at failed
      obtain rfl := Except.error.inj failed
      unfold openAfter at fits
      split at fits
      next => cases fits
      next kind value start stop inForce =>
        split at fits
        next => cases fits
        next =>
          split at fits
          next isClose =>
            subst isClose
            split at fits
            next =>
              obtain rfl := Except.error.inj fits
              exact ⟨value, stop, inForce, List.mem_cons_self, .inl rfl⟩
            next innermost outer =>
              split at fits
              next => cases fits
              next =>
                obtain rfl := Except.error.inj fits
                exact ⟨value, stop, inForce, List.mem_cons_self, .inr ⟨innermost, rfl⟩⟩
          next => cases fits

end Scans

section Tags

variable {pair : Delimiters} {text : List Char}

theorem rest_suffix_readPast (stop skipped close : Pattern) (inner : Cursor) :
    (readPast stop skipped close inner).2.rest <:+ inner.rest :=
  (List.drop_suffix _ _).trans ((List.drop_suffix _ _).trans (List.drop_suffix _ _))

theorem rest_suffix_readValue (pair : Delimiters) (sigil : List Char) (inner : Cursor) :
    (readValue pair sigil inner).2.rest <:+ inner.rest := by
  by_cases isEquals : sigil = ['=']
  · rw [isEquals, readValue_equals]
    exact rest_suffix_readPast _ _ _ inner
  by_cases isBrace : sigil = ['{']
  · rw [isBrace, readValue_brace]
    exact rest_suffix_readPast _ _ _ inner
  rw [readValue_plain pair inner isEquals isBrace]
  exact List.drop_suffix _ _

theorem exists_front_tagBody (pair : Delimiters) (text : List Char) :
    ∃ front, text = front ++ (tagBody pair text).2.rest ∧
      front.length = (tagBody pair text).2.offset := by
  have ends : (tagBody pair text).2.rest <:+ text :=
    (rest_suffix_readValue _ _ _).trans
      ((List.drop_suffix _ _).trans ((List.drop_suffix _ _).trans (List.drop_suffix _ _)))
  have reach : (tagBody pair text).2.reach = text.length := by
    rw [tagBody, reach_readValue, Cursor.reach_skip, tagSigil, Cursor.reach_take,
      Cursor.reach_skip, Cursor.reach_start]
  obtain ⟨front, whole⟩ := ends
  have size := congrArg List.length whole
  rw [List.length_append] at size
  rw [Cursor.reach] at reach
  exact ⟨front, whole.symm, by omega⟩

theorem exists_body_of_readTag? {tag : Tag} (opened : pair.opening.isPrefixOf text = true)
    (read : readTag? pair text = some tag) :
    ∃ body, text = pair.opening ++ body ++ pair.closing ++ text.drop tag.length := by
  rw [readTag?_eq_map, Option.map_eq_some_iff] at read
  obtain ⟨n, closed, rfl⟩ := read
  obtain ⟨blanks, after, behind, -, rfl⟩ := Pattern.closerLength?_eq_some closed
  obtain ⟨front, whole, size⟩ := exists_front_tagBody pair text
  rw [behind] at whole
  have opening : pair.opening.length ≤ front.length := by
    have steps := offset_le_tagBody pair text
    have first : pair.opening.length ≤ ((Cursor.start text).skip pair.openPattern).offset := by
      simp [Cursor.skip, Cursor.take, Cursor.advance, Cursor.start, Delimiters.openPattern,
        Pattern.length?, opened]
    omega
  rw [List.isPrefixOf_iff_prefix] at opened
  obtain ⟨inner, rfl⟩ : pair.opening <+: front := by
    refine List.prefix_of_prefix_length_le opened ?_ opening
    exact whole ▸ List.prefix_append front _
  have tail : text.drop ((tagBody pair text).2.offset + (blanks.length + pair.closing.length)) =
      after := by
    rw [← size]
    conv => lhs; rw [whole]
    rw [← List.append_assoc, ← List.append_assoc, List.drop_left']
    simp only [List.length_append]
    omega
  refine ⟨inner ++ blanks, ?_⟩
  dsimp only
  rw [tail]
  conv => lhs; rw [whole]
  simp only [List.append_assoc]

theorem rest_tagBody_of_unread (unread : readTag? pair text = none) :
    (tagBody pair text).2.rest = [] := by
  rw [readTag?_eq_map, Option.map_eq_none_iff] at unread
  unfold tagBody at unread ⊢
  generalize (tagSigil pair text).1 = sigil at unread ⊢
  generalize (tagSigil pair text).2.skip .blanks = inner at unread ⊢
  by_cases isEquals : sigil = ['=']
  · subst isEquals
    exact Cursor.rest_skipUntil_eq_nil unread
  by_cases isBrace : sigil = ['{']
  · subst isBrace
    exact Cursor.rest_skipUntil_eq_nil unread
  rw [readValue_plain pair inner isEquals isBrace] at unread ⊢
  exact Cursor.rest_skipUntil_eq_nil unread

end Tags

def GivesPair (value : List Char) : Prop :=
  ∃ opening closing more, splitBlank value = opening :: closing :: more ∧ opening ≠ [] ∧
    closing ≠ []

theorem not_givesPair_of_pairAfter {tag : Tag} {pair : Delimiters} {words : List (List Char)}
    (bad : tag.pairAfter pair = .error words) :
    tag.kind = .delimiterTag ∧ ¬ GivesPair tag.value := by
  unfold Tag.pairAfter at bad
  split at bad
  next isDelimiter =>
    refine ⟨isDelimiter, ?_⟩
    rintro ⟨opening, closing, more, split, filled, filled'⟩
    simp [Delimiters.ofText, split, Delimiters.ofPair?, filled, filled'] at bad
  next => cases bad

section Places

/-- A scan gets in front of an opening delimiter that is in force. -/
structure OpensAt (source : List Char) (pair : Delimiters) (reader : Reader) : Prop where
  reached : ∃ pieces, ReadsAll ⟨pair, 0, source⟩ pieces reader
  here : reader.rest = source.drop reader.offset
  opened : reader.pair.opening <+: reader.rest

/-- A scan gets in front of a tag, which is complete. -/
structure TagAt (source : List Char) (pair : Delimiters) (reader : Reader) (tag : Tag) : Prop
    extends OpensAt source pair reader where
  read : readTag? reader.pair reader.rest = some tag
  complete : ∃ body, reader.rest =
    reader.pair.opening ++ body ++ reader.pair.closing ++ reader.rest.drop tag.length

inductive Refuses (source : String) (pair : Delimiters) : Fault → Prop
  | badDelimiters {fault : Fault} {message : String} {reader : Reader} {tag : Tag}
      (reported : fault.report? = some (.configuration message .invalidTags))
      (place : TagAt source.toList pair reader tag) (isDelimiter : tag.kind = .delimiterTag)
      (noPair : ¬ GivesPair tag.value) : Refuses source pair fault
  | unclosedTag {fault : ParseFault} {reader : Reader} (code : fault.code = .unclosedTag)
      (offset : fault.offset = source.length) (place : OpensAt source.toList pair reader)
      (unread : readTag? reader.pair reader.rest = none)
      (readUp : reader.offset + (tagBody reader.pair reader.rest).2.offset = fault.offset) :
      Refuses source pair (.parse fault)
  | closeTag {fault : ParseFault} {reader : Reader} {tag : Tag}
      (code : fault.code = .unopenedSection ∨
        fault.code = .unclosedSection ∧ fault.closing?.isSome = true)
      (offset : fault.offset = reader.offset) (place : TagAt source.toList pair reader tag)
      (isClose : tag.kind = .closeTag) : Refuses source pair (.parse fault)
  | leftOpen {fault : ParseFault} (code : fault.code = .unclosedSection)
      (closing : fault.closing? = none) (offset : fault.offset = source.length) :
      Refuses source pair (.parse fault)

variable {source : List Char} {pair : Delimiters} {reader : Reader} {pieces : List Piece}
  {tag : Tag}

theorem ReadsAll.opensAt (run : ReadsAll ⟨pair, 0, source⟩ pieces reader)
    (opened : reader.pair.opening.isPrefixOf reader.rest = true) : OpensAt source pair reader :=
  ⟨⟨pieces, run⟩, run.offsets.2.2, List.isPrefixOf_iff_prefix.1 opened⟩

theorem ReadsAll.tagAt (run : ReadsAll ⟨pair, 0, source⟩ pieces reader)
    (opened : reader.pair.opening.isPrefixOf reader.rest = true)
    (read : readTag? reader.pair reader.rest = some tag) : TagAt source pair reader tag :=
  ⟨run.opensAt opened, read, exists_body_of_readTag? opened read⟩

theorem ReadsAll.exists_closeTagAt {last : Reader} {value : String} {start stop : Nat}
    {inForce : Delimiters} (run : ReadsAll ⟨pair, 0, source⟩ pieces last)
    (member : .tag .closeTag value start stop inForce ∈ pieces) :
    ∃ reader tag, TagAt source pair reader tag ∧ tag.kind = .closeTag ∧ reader.offset = start ∧
      start ≤ source.length := by
  obtain ⟨before, after, rfl⟩ := List.append_of_mem member
  obtain ⟨reader, front, back⟩ := readsAll_append.1 run
  obtain ⟨next, step, -⟩ := readsAll_cons.1 back
  have starts : reader.offset = start := step.offsets.1.symm
  have inside := front.offsets.2.1
  generalize isPiece : Piece.tag .closeTag value start stop inForce = piece at step
  cases step with
  | text plain => cases isPiece
  | tag opened read after =>
    exact ⟨_, _, front.tagAt opened read, (Piece.tag.inj isPiece).1.symm, starts,
      by simpa [← starts] using inside⟩

theorem ReadsAll.offset_of_unread (run : ReadsAll ⟨pair, 0, source⟩ pieces reader)
    (unread : readTag? reader.pair reader.rest = none) :
    reader.offset + (tagBody reader.pair reader.rest).2.offset = source.length := by
  obtain ⟨-, bound, rest⟩ := run.offsets
  obtain ⟨front, whole, size⟩ := exists_front_tagBody reader.pair reader.rest
  rw [rest_tagBody_of_unread unread, List.append_nil] at whole
  rw [← size, ← whole, rest, List.length_drop]
  dsimp only at bound ⊢
  omega

end Places

section Sources

variable {source : String} {pair : Delimiters} {name : Option String}

theorem refuses_of_mismatch {mismatch : Mismatch}
    (failed : openAfterAll [] (scan pair source.toList).pieces = .error mismatch) :
    Refuses source pair (parseFault source name mismatch.cause mismatch.offset) ∧
      mismatch.offset ≤ source.length := by
  obtain ⟨value, stop, inForce, member, cause⟩ := exists_closeTag_of_mismatch failed
  obtain ⟨pieces, last, left, run, stops, whole⟩ :=
    Reader.exists_stops ⟨pair, 0, source.toList⟩
  change (scan pair source.toList).pieces = _ at whole
  rw [whole] at member
  have wasRead := (List.mem_append.1 member).resolve_right stops.not_closeTag
  obtain ⟨reader, tag, place, isClose, starts, inside⟩ := run.exists_closeTagAt wasRead
  refine ⟨.closeTag ?_ starts.symm place isClose, by rwa [String.length_toList] at inside⟩
  rcases cause with unopened | ⟨innermost, crossed⟩
  · exact .inl (by rw [ParseFault.code, unopened])
  · exact .inr ⟨by rw [ParseFault.code, crossed], by rw [ParseFault.closing?, crossed]; rfl⟩

theorem refuses_of_ending {ending : Ending} (ended : (scan pair source.toList).ending = ending) :
    (ending = .unclosedTag →
      Refuses source pair (parseFault source name .unclosedTag source.length)) ∧
    ∀ words, ending = .badDelimiters words →
      Refuses source pair (.invalidTags (showWords words)) := by
  obtain ⟨pieces, last, left, run, stops, -⟩ := Reader.exists_stops ⟨pair, 0, source.toList⟩
  change last.Stops left (scan pair source.toList).ending at stops
  rw [ended] at stops
  constructor
  · rintro rfl
    cases stops with
    | inTag opened unread =>
      have readUp := run.offset_of_unread unread
      rw [String.length_toList] at readUp
      exact .unclosedTag rfl rfl (run.opensAt opened) unread readUp
  · rintro words rfl
    cases stops with
    | atDelimiters opened read bad =>
      obtain ⟨isDelimiter, noPair⟩ := not_givesPair_of_pairAfter bad
      exact .badDelimiters rfl (run.tagAt opened read) isDelimiter noPair

end Sources

theorem tokenize_ends_located (source : String) (pair : Delimiters) (name : Option String) :
    (∃ tokens, tokenize source pair name = .ok tokens) ∨
    ∃ fault, tokenize source pair name = .error fault ∧ Refuses source pair fault ∧
      ∀ parse, fault = .parse parse → parse.offset ≤ source.length := by
  unfold tokenize
  dsimp only
  cases matched : openAfterAll [] (scan pair source.toList).pieces with
  | error mismatch =>
    obtain ⟨refuses, inside⟩ := refuses_of_mismatch matched
    refine .inr ⟨_, rfl, refuses, ?_⟩
    rintro parse ⟨⟩
    exact inside
  | ok opened =>
    obtain ⟨inTag, atDelimiters⟩ := @refuses_of_ending source pair name _ rfl
    have atEnd {cause : ParseCause} (parse : ParseFault)
        (same : parseFault source name cause source.length = .parse parse) :
        parse.offset ≤ source.length := by
      obtain rfl := Fault.parse.inj same
      exact Nat.le_refl _
    rw [String.length_toList]
    cases ending : (scan pair source.toList).ending with
    | unclosedTag => exact .inr ⟨_, rfl, inTag ending, atEnd⟩
    | badDelimiters words => exact .inr ⟨_, rfl, atDelimiters words ending, by simp⟩
    | complete inForce =>
      dsimp only
      cases opened.reverse with
      | nil => exact .inl ⟨_, rfl⟩
      | cons outermost inner => exact .inr ⟨_, rfl, .leftOpen rfl rfl rfl, atEnd⟩

end Mustache
