import Mathlib.Data.List.DropRight
import Mustache.Proofs.Spans

set_option autoImplicit false

namespace Mustache

def openLine (pieces : List Piece) : List Piece :=
  pieces.rtakeWhile fun piece => !piece.endsLine

/-- The pieces on the line of an offset that end at or before it. -/
def lineBefore (pieces : List Piece) (offset : Nat) : List Piece :=
  openLine (pieces.filter fun piece => piece.stop ≤ offset)

/-- A mark that tells of a line how many tags are on it, whether any text on it is visible, and its
text with a space for every visible character. -/
structure LineMark.Records (mark : LineMark) (line : List Piece) : Prop where
  tagIndex : mark.tagIndex = line.countP Piece.isTag
  hasText : mark.hasText = true ↔ ∃ start c, .text start c ∈ line ∧ isBlank c = false
  indentation : mark.indentation.toList = line.filterMap Piece.indent?

def lastLineStart (text : List Char) : Nat :=
  (text.rdropWhile (· ≠ '\n')).length

section Lines

variable {pieces before after : List Piece} {first last : Reader} {piece : Piece}

theorem openLine_concat (pieces : List Piece) (piece : Piece) :
    openLine (pieces ++ [piece]) = if piece.endsLine then [] else openLine pieces ++ [piece] := by
  rw [openLine, List.rtakeWhile_concat]
  cases piece.endsLine <;> rfl

theorem exists_split_of_mem_rawFrom (ahead : List Piece) {token : Token}
    (member : token ∈ rawFrom (openLine ahead) pieces) :
    ∃ before piece after, pieces = before ++ piece :: after ∧
      token = piece.token (openLine (ahead ++ before)) := by
  -- The line of the raw stream is what the pieces read so far leave open.
  induction pieces generalizing ahead with
  | nil => cases member
  | cons piece rest ih =>
    rw [rawFrom, ← openLine_concat] at member
    rcases List.mem_cons.1 member with rfl | later
    · exact ⟨[], piece, rest, rfl, by rw [List.append_nil]⟩
    · obtain ⟨before, other, after, rfl, found⟩ := ih (ahead ++ [piece]) later
      refine ⟨piece :: before, other, after, rfl, ?_⟩
      rw [found, List.append_assoc, List.singleton_append]

theorem ReadsAll.lineBefore_start (run : ReadsAll first (before ++ piece :: after) last) :
    lineBefore (before ++ piece :: after) piece.start = openLine before := by
  obtain ⟨middle, front, back⟩ := readsAll_append.1 run
  obtain ⟨next, step, onward⟩ := readsAll_cons.1 back
  obtain ⟨starts, stops, forward, -⟩ := step.offsets
  have kept : (before.filter fun other => other.stop ≤ piece.start) = before := by
    rw [List.filter_eq_self]
    intro other member
    have bound := (front.stop_bounds other member).2
    simpa [starts] using bound
  have dropped : ((piece :: after).filter fun other => other.stop ≤ piece.start) = [] := by
    rw [List.filter_eq_nil_iff]
    intro other member
    have bound := (back.stop_bounds other member).1
    simpa [starts] using bound
  rw [lineBefore, List.filter_append, kept, dropped, List.append_nil]

theorem rdropWhile_endsLine (pieces : List Piece) :
    (pieces.rdropWhile fun piece => !piece.endsLine) = [] ∨
      ∃ above start, (pieces.rdropWhile fun piece => !piece.endsLine) =
        above ++ [.text start '\n'] := by
  have ends := List.rdropWhile_last_not (fun piece : Piece => !piece.endsLine) pieces
  rcases List.eq_nil_or_concat (pieces.rdropWhile fun piece => !piece.endsLine) with
    nothing | ⟨above, last, whole⟩
  · exact .inl nothing
  · simp only [whole, List.concat_eq_append, List.getLast_append_singleton] at ends ⊢
    cases last with
    | text start c =>
      have lineFeed : c = '\n' := by simpa [Piece.endsLine] using ends
      exact .inr ⟨above, start, by rw [lineFeed]⟩
    | tag kind value start stop inForce => simp [Piece.endsLine] at ends

theorem lastLineStart_append {front line : List Char} (oneLine : '\n' ∉ line) :
    lastLineStart (front ++ line) = lastLineStart front := by
  have passed : ∀ c ∈ line.reverse, decide (c ≠ '\n') = true := by
    intro c member
    have other : c ≠ '\n' := fun same => oneLine (same ▸ List.mem_reverse.1 member)
    simpa using other
  simp only [lastLineStart, List.rdropWhile, List.reverse_append]
  rw [List.dropWhile_append_of_pos passed]

theorem ReadsAll.exists_text (run : ReadsAll first pieces last)
    (bare : ∀ piece ∈ pieces, piece.isTag = false)
    (opened : ∀ piece ∈ pieces, piece.endsLine = false) :
    ∃ text, first.rest = text ++ last.rest ∧ '\n' ∉ text ∧
      text.length = (pieces.filterMap Piece.indent?).length := by
  induction run with
  | nil reader => exact ⟨[], by simp⟩
  | @cons first middle last piece pieces step run ih =>
    rw [List.forall_mem_cons] at bare opened
    obtain ⟨text, rest, oneLine, length⟩ := ih bare.2 opened.2
    cases step with
    | @text pair offset c behind plain =>
      have other : '\n' ≠ c := fun same => by simp [Piece.endsLine, ← same] at opened
      refine ⟨c :: text, congrArg (c :: ·) rest, ?_, by simp [Piece.indent?, length]⟩
      exact List.not_mem_cons_of_ne_of_not_mem other oneLine
    | tag opens read after => simp [Tag.piece, Piece.isTag] at bare

theorem ReadsAll.lastLineStart_eq {pair : Delimiters} {source : List Char}
    (run : ReadsAll ⟨pair, 0, source⟩ (pieces.rdropWhile fun piece => !piece.endsLine) last) :
    lastLineStart (source.take last.offset) = last.offset := by
  rcases rdropWhile_endsLine pieces with nothing | ⟨above, start, whole⟩
  · rw [nothing, readsAll_nil] at run
    rw [← run]
    rfl
  · rw [whole] at run
    obtain ⟨middle, -, end'⟩ := readsAll_append.1 run
    obtain ⟨next, step, ended⟩ := readsAll_cons.1 end'
    obtain rfl := readsAll_nil.1 ended
    have stops : start + 1 = next.offset := step.offsets.2.1
    have lineFeed : source[start]? = some '\n' := (run.getElem?_of_text (by simp)).2
    have inside := (List.getElem?_eq_some_iff.1 lineFeed).1
    rw [← stops, List.take_add_one, lineFeed]
    simp only [lastLineStart, Option.toList_some]
    rw [List.rdropWhile_concat_neg _ _ _ (by simp)]
    simp only [List.length_append, List.length_take, List.length_singleton]
    omega

theorem ReadsAll.length_indentation {pair : Delimiters} {source : List Char}
    (run : ReadsAll ⟨pair, 0, source⟩ pieces last)
    (bare : (openLine pieces).countP Piece.isTag = 0) :
    ((openLine pieces).filterMap Piece.indent?).length =
      last.offset - lastLineStart (source.take last.offset) := by
  rw [← List.rdropWhile_append_rtakeWhile (p := fun piece : Piece => !piece.endsLine) (l := pieces)]
    at run
  obtain ⟨middle, above, line⟩ := readsAll_append.1 run
  obtain ⟨text, whole, oneLine, length⟩ := line.exists_text
    (fun piece member => by simpa using List.countP_eq_zero.1 bare piece member)
    (fun piece member => by simpa using List.mem_rtakeWhile_imp member)
  obtain ⟨-, within, behind⟩ := above.offsets
  obtain ⟨onward, bound, rest⟩ := line.offsets
  have size : text.length = last.offset - middle.offset := by
    have total := congrArg List.length whole
    rw [rest, List.length_append, List.length_drop] at total
    omega
  have taken : source.take last.offset = source.take middle.offset ++ text := by
    have front : text = middle.rest.take (last.offset - middle.offset) := by
      rw [whole, ← size, List.take_left]
    rw [front, behind, Nat.sub_zero, ← List.take_add, Nat.add_sub_cancel' onward]
  rw [taken, lastLineStart_append oneLine, above.lastLineStart_eq, openLine, ← length, size]

theorem lineMark_records (line : List Piece) : (lineMark line).Records line where
  tagIndex := rfl
  indentation := String.toList_ofList
  hasText := by
    simp only [lineMark, List.any_eq_true]
    constructor
    · rintro ⟨piece, member, visible⟩
      cases piece with
      | text start c => exact ⟨start, c, member, by simpa [Piece.isVisible] using visible⟩
      | tag kind value start stop inForce => cases visible
    · rintro ⟨start, c, member, visible⟩
      exact ⟨_, member, by simp [Piece.isVisible, visible]⟩

end Lines

theorem partialTag_records_line {source : String} {pair : Delimiters} {name : Option String}
    {tokens : List Token} (tokenized : tokenize source pair name = .ok tokens) {token : Token}
    (member : token ∈ tokens) (isPartial : token.kind = .partialTag) :
    (∃ inForce, .tag .partialTag token.value token.start token.stop inForce ∈
      (scan pair source.toList).pieces) ∧
    token.mark.Records (lineBefore (scan pair source.toList).pieces token.start) ∧
    (token.mark.tagIndex = 0 → token.mark.indentation.length =
      token.start - lastLineStart (source.toList.take token.start)) := by
  obtain ⟨⟨inForce, ended⟩, -, rfl⟩ := tokenize_eq_ok_iff.1 tokenized
  have run := readsAll_scan ended
  have raw := (settle_sublist run.proper).subset member
  obtain ⟨before, piece, after, pieces, isToken⟩ := exists_split_of_mem_rawFrom [] raw
  rw [List.nil_append] at isToken
  cases piece with
  | text start c => simp [isToken, Piece.token] at isPartial
  | tag kind value start stop inForce =>
    obtain rfl : kind = .partialTag := by simpa [isToken, Piece.token] using isPartial
    have starts : token.start = start := by rw [isToken]; rfl
    have marked : token.mark = lineMark (openLine before) := by simp [isToken, Piece.token]
    rw [pieces] at run ⊢
    have here : lineBefore (before ++ .tag .partialTag value start stop inForce :: after) start =
        openLine before := run.lineBefore_start
    obtain ⟨middle, front, back⟩ := readsAll_append.1 run
    obtain ⟨next, step, -⟩ := readsAll_cons.1 back
    have reached : start = middle.offset := step.offsets.1
    rw [starts, here, marked]
    refine ⟨⟨inForce, ?_⟩, lineMark_records _, fun bare => ?_⟩
    · simp [isToken, Piece.token]
    · rw [← String.length_toList, (lineMark_records _).indentation, front.length_indentation bare,
        ← reached]

theorem partialTag_records_line_behind_comment :
    tokenize "a\n\té\x7b\x7b!\n\x7d\x7d {{>p}}\n {{>q}}" .standard none = .ok
        [⟨.text, "a", 0, 1, {}⟩, ⟨.text, "\n", 1, 2, {}⟩, ⟨.text, "\t", 2, 3, {}⟩,
          ⟨.text, "é", 3, 4, {}⟩, ⟨.comment, "", 4, 10, {}⟩, ⟨.text, " ", 10, 11, {}⟩,
          ⟨.partialTag, "p", 11, 17, ⟨"\t  ", 1, true⟩⟩, ⟨.text, "\n", 17, 18, {}⟩,
          ⟨.partialTag, "q", 19, 25, ⟨" ", 0, false⟩⟩] ∧
      LineMark.Records ⟨"\t  ", 1, true⟩
        (lineBefore (scan .standard "a\n\té\x7b\x7b!\n\x7d\x7d {{>p}}\n {{>q}}".toList).pieces 11) ∧
      " ".length =
        19 - lastLineStart ("a\n\té\x7b\x7b!\n\x7d\x7d {{>p}}\n {{>q}}".toList.take 19) := by
  have tokenized : tokenize "a\n\té\x7b\x7b!\n\x7d\x7d {{>p}}\n {{>q}}" .standard none = .ok
      [⟨.text, "a", 0, 1, {}⟩, ⟨.text, "\n", 1, 2, {}⟩, ⟨.text, "\t", 2, 3, {}⟩,
        ⟨.text, "é", 3, 4, {}⟩, ⟨.comment, "", 4, 10, {}⟩, ⟨.text, " ", 10, 11, {}⟩,
        ⟨.partialTag, "p", 11, 17, ⟨"\t  ", 1, true⟩⟩, ⟨.text, "\n", 17, 18, {}⟩,
        ⟨.partialTag, "q", 19, 25, ⟨" ", 0, false⟩⟩] := rfl
  obtain ⟨-, records, -⟩ := @partialTag_records_line _ _ _ _ tokenized
    ⟨.partialTag, "p", 11, 17, ⟨"\t  ", 1, true⟩⟩ (by simp) rfl
  obtain ⟨-, -, length⟩ := @partialTag_records_line _ _ _ _ tokenized
    ⟨.partialTag, "q", 19, 25, ⟨" ", 0, false⟩⟩ (by simp) rfl
  exact ⟨tokenized, records, length rfl⟩

end Mustache
