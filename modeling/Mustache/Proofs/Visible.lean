import Mustache.Proofs.Extension
import Mustache.Proofs.Spelling

set_option autoImplicit false

namespace Mustache

def Piece.Visible : Piece → Prop
  | text _ c => isBlank c = false
  | tag _ _ _ _ _ => True

def unmarked (_ : LineMark) : LineMark := {}

def Piece.letter : Piece → Token
  | text _ c => .ofChar c
  | tag kind value _ _ _ => { kind, value, start := 0, stop := 0 }

section Pieces

variable {pieces line : List Piece}

theorem letter_moved (distance : Nat) (piece : Piece) :
    (piece.moved distance).letter = piece.letter := by
  cases piece <;> rfl

theorem map_letter_moved (distance : Nat) (pieces : List Piece) :
    (pieces.map (Piece.moved distance)).map Piece.letter = pieces.map Piece.letter := by
  rw [List.map_map]
  exact List.map_congr_left fun piece _ => letter_moved distance piece

theorem letters_prependAll (pieces : List Piece) (scan : Scan) (distance : Nat) :
    ((scan.moved distance).prependAll pieces).pieces.map Piece.letter =
      pieces.map Piece.letter ++ scan.pieces.map Piece.letter := by
  simp only [Scan.prependAll, Scan.moved, List.map_append, map_letter_moved]

theorem visible_moved {piece : Piece} {distance : Nat} :
    (piece.moved distance).Visible ↔ piece.Visible := by
  cases piece <;> exact Iff.rfl

theorem forall_visible_prependAll {scan : Scan} {distance : Nat}
    (visible : ∀ piece ∈ pieces, piece.Visible) (later : ∀ piece ∈ scan.pieces, piece.Visible) :
    ∀ piece ∈ ((scan.moved distance).prependAll pieces).pieces, piece.Visible := by
  simp only [Scan.prependAll, Scan.moved, List.forall_mem_append, List.forall_mem_map,
    visible_moved]
  exact ⟨visible, later⟩

theorem forall_visible_prepend {scan : Scan} {distance : Nat} {first : Piece}
    (visible : first.Visible) (later : ∀ piece ∈ scan.pieces, piece.Visible) :
    ∀ piece ∈ ((scan.moved distance).prepend first).pieces, piece.Visible :=
  @forall_visible_prependAll [first] scan distance (by simpa using visible) later

theorem ReadsAll.visible {first last : Reader} (run : ReadsAll first pieces last)
    (noBlank : ∀ c ∈ first.rest, isBlank c = false) : ∀ piece ∈ pieces, piece.Visible := by
  induction run with
  | nil reader => simp
  | cons step run ih =>
    rw [List.forall_mem_cons]
    refine ⟨?_, ih fun c member => noBlank c (step.rest_suffix.subset member)⟩
    cases step with
    | text plain => exact noBlank _ List.mem_cons_self
    | tag opened read after => trivial

theorem spell_token {piece : Piece} (proper : piece.Proper) (line : List Piece) :
    (piece.token line).spell unmarked = [piece.letter] := by
  cases piece with
  | text start c => simp [Piece.token, Token.spell, Piece.letter]
  | tag kind value start stop inForce => exact Token.spell_tag proper

theorem spell_rawFrom (proper : ∀ piece ∈ pieces, piece.Proper) (line : List Piece) :
    spell unmarked (rawFrom line pieces) = pieces.map Piece.letter := by
  induction pieces generalizing line with
  | nil => rfl
  | cons piece rest ih =>
    rw [List.forall_mem_cons] at proper
    rw [rawFrom, spell_cons, spell_token proper.1, ih proper.2]
    rfl

theorem Piece.Visible.endsLine {piece : Piece} (visible : piece.Visible) :
    piece.endsLine = false := by
  cases piece with
  | text start c =>
    have notLineFeed : c ≠ '\n' := by
      rintro rfl
      exact absurd (isBlank_lineFeed.symm.trans visible) (by simp)
    simpa [Piece.endsLine] using notLineFeed
  | tag kind value start stop inForce => rfl

theorem exists_line_of_mem_rawFrom (visible : ∀ piece ∈ pieces, piece.Visible)
    (before : ∀ piece ∈ line, piece.Visible) {token : Token}
    (member : token ∈ rawFrom line pieces) :
    ∃ piece ∈ pieces, ∃ ahead, (∀ piece ∈ ahead, piece.Visible) ∧ token = piece.token ahead := by
  induction pieces generalizing line with
  | nil => cases member
  | cons piece rest ih =>
    rw [List.forall_mem_cons] at visible
    rw [rawFrom, visible.1.endsLine] at member
    rcases List.mem_cons.1 member with rfl | later
    · exact ⟨piece, List.mem_cons_self, line, before, rfl⟩
    · have onLine : ∀ other ∈ line ++ [piece], other.Visible := by
        rw [List.forall_mem_append, List.forall_mem_singleton]
        exact ⟨before, visible.1⟩
      obtain ⟨other, isLater, found⟩ := ih visible.2 onLine later
      exact ⟨other, List.mem_cons_of_mem _ isLater, found⟩

theorem isContent_of_text {piece : Piece} (visible : piece.Visible) {ahead : List Piece}
    (isText : (piece.token ahead).isTag = false) (proper : piece.Proper) :
    (piece.token ahead).isContent = true := by
  cases piece with
  | text start c =>
    have isVisible : isBlank c = false := visible
    simp [Piece.token, Token.isContent, isVisible]
  | tag kind value start stop inForce =>
    have isTag : kind ≠ .text := proper
    simp [Piece.token, Token.isTag, isTag] at isText

theorem settle_of_visible (visible : ∀ piece ∈ pieces, piece.Visible)
    (proper : ∀ piece ∈ pieces, piece.Proper) : settle {} pieces = rawTokens pieces := by
  have lines (token : Token) (member : token ∈ rawTokens pieces) :=
    exists_line_of_mem_rawFrom visible (by simp) member
  have open' : ∀ token ∈ rawTokens pieces, token.endsLine = false := by
    intro token member
    obtain ⟨piece, isPiece, ahead, -, rfl⟩ := lines token member
    rw [endsLine_token ahead (proper piece isPiece)]
    exact (visible piece isPiece).endsLine
  rw [settle_eq_stripped_lines proper, cutAfterLines_of_open open', List.flatMap_singleton,
    stripLine]
  split
  next alone =>
    obtain ⟨-, empty⟩ := Bool.and_eq_true_iff.1 alone
    rw [List.filter_eq_self]
    intro token member
    obtain ⟨piece, isPiece, ahead, -, rfl⟩ := lines token member
    cases isTag : (piece.token ahead).isTag with
    | true => rfl
    | false =>
      -- Any text would keep the line from standing alone.
      have content := isContent_of_text (visible piece isPiece) isTag (proper piece isPiece)
      have some : (rawTokens pieces).any Token.isContent = true :=
        List.any_eq_true.2 ⟨_, member, content⟩
      simp [some] at empty
  next => rfl

theorem spell_settle_of_visible (visible : ∀ piece ∈ pieces, piece.Visible)
    (proper : ∀ piece ∈ pieces, piece.Proper) :
    spell unmarked (settle {} pieces) = pieces.map Piece.letter := by
  rw [settle_of_visible visible proper]
  exact spell_rawFrom proper []

theorem openNames_letters (opened : List String) (pieces : List Piece) :
    openNames opened (pieces.map Piece.letter) =
      openNames opened (pieces.filterMap Piece.bareTag?) := by
  induction pieces generalizing opened with
  | nil => rfl
  | cons piece rest ih =>
    cases piece with
    | text start c =>
      rw [List.map_cons, filterMap_bareTag?_text, ← ih]
      exact openNames_other rfl (by simp [Piece.letter, Token.ofChar])
    | tag kind value start stop inForce =>
      rw [List.map_cons, filterMap_bareTag?_tag]
      simp only [openNames, Piece.letter, ih]

end Pieces

section Marks

def LineMark.Plain (mark : LineMark) : Prop :=
  mark.indentation ≠ "" → mark.hasText = true

theorem plain_lineMark {line : List Piece} (visible : ∀ piece ∈ line, piece.Visible) :
    (lineMark line).Plain := by
  intro indented
  obtain ⟨c, some⟩ : ∃ c, c ∈ line.filterMap Piece.indent? := by
    refine List.exists_mem_of_ne_nil _ fun empty => indented ?_
    rw [lineMark, empty]
  obtain ⟨piece, member, isText⟩ := List.mem_filterMap.1 some
  refine List.any_eq_true.2 ⟨piece, member, ?_⟩
  cases piece with
  | text start c =>
    have isVisible : isBlank c = false := visible _ member
    simp [Piece.isVisible, isVisible]
  | tag kind value start stop inForce => cases isText

theorem partialSource_of_oneLine {source : String} {token : Token} (plain : token.mark.Plain)
    (oneLine : '\n' ∉ source.toList) : Job.partialSource token source = source := by
  unfold Job.partialSource
  split
  next indented =>
    rw [plain indented.2, indentPartial, cutLines_of_oneLine oneLine]
    simp [indentLines, joinLines, joinWith]
  next => rfl

end Marks

section Trees

variable {source : String} {pair : Delimiters} {name : Option String} {nodes : List Node}

theorem spelled_of_parseTemplate (parsed : parseTemplate source pair name = .ok nodes)
    (visible : ∀ piece ∈ (scan pair source.toList).pieces, piece.Visible) :
    Nests ((scan pair source.toList).pieces.map Piece.letter) (spelled unmarked nodes) := by
  obtain ⟨⟨inForce, ended⟩, -, nests⟩ := parseTemplate_eq_ok_iff.1 parsed
  have spelling := nests.spelled unmarked
  rwa [spell_squash, spell_settle_of_visible visible (readsAll_scan ended).proper] at spelling

theorem parseTemplate_of_letters {inForce : Delimiters} {forest : List Node}
    (ended : (scan pair source.toList).ending = .complete inForce)
    (visible : ∀ piece ∈ (scan pair source.toList).pieces, piece.Visible)
    (nests : Nests ((scan pair source.toList).pieces.map Piece.letter) forest) :
    ∃ nodes, parseTemplate source pair name = .ok nodes ∧ spelled unmarked nodes = forest := by
  have proper := (readsAll_scan ended).proper
  have matched : openAfterAll [] (scan pair source.toList).pieces = .ok [] := by
    rw [openAfterAll_eq_ok_iff, ← openNames_letters]
    exact openNames_of_nests nests
  obtain ⟨nodes, nested⟩ := exists_nests_squash_settle proper matched
  have parsed : parseTemplate source pair name = .ok nodes :=
    parseTemplate_eq_ok_iff.2 ⟨⟨inForce, ended⟩, matched, nested⟩
  exact ⟨nodes, parsed, (spelled_of_parseTemplate parsed visible).unique nests⟩

theorem plain_of_within (parsed : parseTemplate source pair name = .ok nodes)
    (visible : ∀ piece ∈ (scan pair source.toList).pieces, piece.Visible) {token : Token}
    (within : Node.Within (.leaf token) nodes) (isTag : token.isTag = true) :
    token.mark.Plain := by
  obtain ⟨⟨inForce, ended⟩, -, nests⟩ := parseTemplate_eq_ok_iff.1 parsed
  have proper := (readsAll_scan ended).proper
  have kept : token ∈ (squash (settle {} (scan pair source.toList).pieces)).filter Token.isTag :=
    List.mem_filter.2 ⟨nests.token_mem within, isTag⟩
  rw [filter_isTag_squash, settle_of_visible visible proper] at kept
  obtain ⟨piece, -, ahead, visibleAhead, rfl⟩ :=
    exists_line_of_mem_rawFrom visible (by simp) (List.mem_filter.1 kept).1
  cases piece with
  | text start c => cases isTag
  | tag kind value start stop inForce =>
    simp only [Piece.token]
    split
    · exact plain_lineMark visibleAhead
    · exact fun indented => absurd rfl indented

end Trees

end Mustache
