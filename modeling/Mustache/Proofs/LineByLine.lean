import Mustache.Proofs.Extension
import Mustache.Proofs.Nesting

set_option autoImplicit false

namespace Mustache

section Words

theorem isBlank_of_mem_go {word text : List Char} (visible : ∀ c ∈ word, isBlank c = false) :
    ∀ piece ∈ splitBlank.go word text, ∀ c ∈ piece, isBlank c = false := by
  fun_induction splitBlank.go word text with
  | case1 word => simpa using visible
  | case2 word c blank => simpa using visible
  | case3 word c blank d rest next ih => exact ih visible
  | case4 word c blank d rest next ih =>
    rw [List.forall_mem_cons]
    exact ⟨by simpa using visible, ih (by simp)⟩
  | case5 word c rest blank ih =>
    apply ih
    rw [List.forall_mem_cons]
    exact ⟨by simpa using blank, visible⟩

theorem Delimiters.unblank_of_ofText {text : List Char} {pair : Delimiters}
    (found : ofText text = .ok pair) : pair.Unblank := by
  have words : ∀ word ∈ (splitBlank text).take 2, ∀ c ∈ word, isBlank c = false :=
    fun word member => isBlank_of_mem_go (by simp) word (List.mem_of_mem_take member)
  unfold ofText at found
  dsimp only at found
  split at found
  next opening closing two =>
    rw [two] at words
    split at found
    next paired =>
      unfold ofPair? at paired
      split at paired
      next filled =>
        obtain rfl := Option.some.inj paired
        obtain rfl := Except.ok.inj found
        exact ⟨words opening (by simp), words closing (by simp)⟩
      next => contradiction
    next => contradiction
  next => contradiction

theorem Reads.unblank {first last : Reader} {piece : Piece} (step : Reads first piece last)
    (unblank : first.pair.Unblank) : last.pair.Unblank := by
  cases step with
  | text plain => exact unblank
  | tag opened read after =>
    unfold Tag.pairAfter at after
    split at after
    · exact Delimiters.unblank_of_ofText after
    · obtain rfl := Except.ok.inj after
      exact unblank

theorem ReadsAll.unblank {first last : Reader} {pieces : List Piece}
    (run : ReadsAll first pieces last) (unblank : first.pair.Unblank) : last.pair.Unblank := by
  induction run with
  | nil reader => exact unblank
  | cons step run ih => exact ih (step.unblank unblank)

end Words

section LastPiece

theorem getLast?_append_of_ne_nil {before after : List Char} (nonempty : after ≠ []) :
    (before ++ after).getLast? = after.getLast? := by
  rw [List.getLast?_append, List.getLast?_eq_some_getLast nonempty, Option.some_or]

def Cursor.IsIn (text : List Char) (cursor : Cursor) : Prop :=
  cursor.rest = text.drop cursor.offset

theorem Cursor.IsIn.advance {text : List Char} {cursor : Cursor} (isIn : cursor.IsIn text)
    (n : Nat) : (cursor.advance n).IsIn text := by
  simp only [IsIn, Cursor.advance] at isIn ⊢
  rw [isIn, List.drop_drop]

theorem isIn_readValue {text : List Char} {inner : Cursor} (pair : Delimiters) (sigil : List Char)
    (isIn : inner.IsIn text) : (readValue pair sigil inner).2.IsIn text := by
  unfold readValue
  split
  · exact ((isIn.advance _).advance _).advance _
  · split
    · exact ((isIn.advance _).advance _).advance _
    · exact isIn.advance _

theorem isIn_tagBody (pair : Delimiters) (text : List Char) : (tagBody pair text).2.IsIn text := by
  have start : (Cursor.start text).IsIn text := rfl
  exact isIn_readValue pair _ (((start.advance _).advance _).advance _)

theorem closing_of_readTag? {pair : Delimiters} {text : List Char} {tag : Tag}
    (found : readTag? pair text = some tag) :
    ∃ body rest, text = body ++ pair.closing ++ rest ∧
      tag.length = (body ++ pair.closing).length := by
  rw [readTag?_eq_map, Option.map_eq_some_iff] at found
  obtain ⟨n, closed, rfl⟩ := found
  obtain ⟨blanks, rest, left, -, rfl⟩ := Pattern.closerLength?_eq_some closed
  have isIn := isIn_tagBody pair text
  rw [Cursor.IsIn, left] at isIn
  have inside : (tagBody pair text).2.offset ≤ text.length := by
    have size := congrArg List.length isIn
    have closing := List.length_pos_iff.2 pair.closing_ne_nil
    simp only [List.length_append, List.length_drop] at size
    omega
  refine ⟨text.take (tagBody pair text).2.offset ++ blanks, rest, ?_, ?_⟩
  · have whole := List.take_append_drop (tagBody pair text).2.offset text
    rw [← isIn] at whole
    simpa using whole.symm
  · simp only [List.length_append, List.length_take, Nat.min_eq_left inside, Nat.add_assoc]

theorem Delimiters.Unblank.clearOf {pair : Delimiters} (unblank : pair.Unblank) {text : List Char}
    (ends : text.getLast? = some '\n') : pair.ClearOf text := by
  rintro front back split begins - ⟨before, rfl⟩
  rw [getLast?_append_of_ne_nil begins] at ends
  have member : '\n' ∈ pair.opening := by simp [split, List.mem_of_getLast? ends]
  have blank := unblank.1 '\n' member
  rw [isBlank_lineFeed] at blank
  contradiction

theorem Reads.last_of_lineFeed {first last : Reader} {piece : Piece}
    (step : Reads first piece last) (unblank : first.pair.Unblank)
    (ends : first.rest.getLast? = some '\n') (done : last.rest = []) :
    piece = .text first.offset '\n' := by
  cases step with
  | @text pair offset c rest plain =>
    obtain rfl : rest = [] := done
    simpa using ends
  | @tag pair next offset source found opened read after =>
    -- A tag at the very end would leave the closing delimiter in place of the line feed.
    obtain ⟨body, rest, rfl, size⟩ := closing_of_readTag? read
    obtain rfl : rest = [] := by simpa [size] using done
    simp only [List.append_nil] at ends
    rw [getLast?_append_of_ne_nil pair.closing_ne_nil] at ends
    have blank := unblank.2 '\n' (List.mem_of_getLast? ends)
    rw [isBlank_lineFeed] at blank
    contradiction

theorem ReadsAll.last_of_lineFeed {first last : Reader} {pieces : List Piece}
    (run : ReadsAll first pieces last) (unblank : first.pair.Unblank)
    (ends : first.rest.getLast? = some '\n') (done : last.rest = []) :
    ∃ before start, pieces = before ++ [.text start '\n'] := by
  induction run with
  | nil reader => simp [done] at ends
  | @cons first middle last piece pieces step run ih =>
    by_cases final : middle.rest = []
    · have lineFeed := step.last_of_lineFeed unblank ends final
      have stopped : pieces = [] := by
        cases run with
        | nil reader => rfl
        | cons next onward =>
          obtain ⟨-, -, forward, bound, -⟩ := next.offsets
          rw [final, List.length_nil] at bound
          omega
      exact ⟨[], first.offset, by rw [lineFeed, stopped]; rfl⟩
    · obtain ⟨front, whole⟩ := step.rest_suffix
      rw [← whole, getLast?_append_of_ne_nil final] at ends
      obtain ⟨before, start, rfl⟩ := ih (step.unblank unblank) ends done
      exact ⟨piece :: before, start, rfl⟩

end LastPiece

section Settling

theorem settle_append_lineFeed (state : LineState) (before after : List Piece) (start : Nat) :
    settle state (before ++ .text start '\n' :: after) =
      settle state (before ++ [.text start '\n']) ++ settle {} after := by
  induction before generalizing state with
  | nil => simp [settle, LineState.step, LineState.finish]
  | cons piece before ih => simp only [List.cons_append, settle, ih, List.append_assoc]

def LineState.moved (distance : Nat) (state : LineState) : LineState :=
  { state with held := state.held.map (Token.moved distance) }

theorem LineState.finish_moved (distance : Nat) (state : LineState) :
    (state.moved distance).finish = state.finish.map (Token.moved distance) := by
  unfold finish
  change (if state.hasTag && !state.hasContent then _ else _) = _
  split
  · rw [moved, ← List.map_reverse, List.filter_map]
    rfl
  · rw [moved, ← List.map_reverse]

theorem LineState.step_moved (distance : Nat) (state : LineState) (piece : Piece) :
    (state.moved distance).step (piece.moved distance) =
      ((state.step piece).1.map (Token.moved distance), (state.step piece).2.moved distance) := by
  cases piece with
  | text start c =>
    have added : (state.moved distance).addText (start + distance) c =
        (state.addText start c).moved distance := by
      simp [addText, moved, Token.moved, Nat.add_right_comm]
    by_cases lineFeed : c = '\n'
    · simp only [Piece.moved, step, lineFeed, if_true] at added ⊢
      rw [added, finish_moved]
      rfl
    · simp only [Piece.moved, step, added, lineFeed, if_false, List.map_nil]
  | tag kind value start stop inForce => rfl

theorem settle_moved (distance : Nat) (state : LineState) (pieces : List Piece) :
    settle (state.moved distance) (pieces.map (Piece.moved distance)) =
      (settle state pieces).map (Token.moved distance) := by
  induction pieces generalizing state with
  | nil => exact state.finish_moved distance
  | cons piece rest ih =>
    rw [List.map_cons, settle, settle, LineState.step_moved, ih, List.map_append]

end Settling

section Sections

def Mismatch.moved (distance : Nat) (mismatch : Mismatch) : Mismatch :=
  { mismatch with offset := mismatch.offset + distance }

theorem openAfterAll_append (opened : List String) (before after : List Piece) :
    openAfterAll opened (before ++ after) =
      (openAfterAll opened before).bind fun opened => openAfterAll opened after := by
  induction before generalizing opened with
  | nil => rfl
  | cons piece rest ih =>
    rw [List.cons_append, openAfterAll, openAfterAll]
    cases openAfter opened piece with
    | error mismatch => rfl
    | ok opened => exact ih opened

theorem openAfter_moved (distance : Nat) (opened : List String) (piece : Piece) :
    openAfter opened (piece.moved distance) =
      (openAfter opened piece).mapError (Mismatch.moved distance) := by
  cases piece with
  | text start c => rfl
  | tag kind value start stop inForce =>
    simp only [Piece.moved, openAfter]
    split
    · rfl
    · split
      · cases opened with
        | nil => rfl
        | cons innermost outer =>
          dsimp only
          split <;> rfl
      · rfl

theorem openAfterAll_moved (distance : Nat) (opened : List String) (pieces : List Piece) :
    openAfterAll opened (pieces.map (Piece.moved distance)) =
      (openAfterAll opened pieces).mapError (Mismatch.moved distance) := by
  induction pieces generalizing opened with
  | nil => rfl
  | cons piece rest ih =>
    rw [List.map_cons, openAfterAll, openAfterAll, openAfter_moved]
    cases openAfter opened piece with
    | error mismatch => rfl
    | ok opened => exact ih opened

end Sections

def Fault.behind (front : String) : Fault → Fault
  | .parse fault =>
      .parse { fault with
        offset := fault.offset + front.length
        source := front ++ fault.source }
  | fault => fault

section Parts

variable {first second : String} {pair inForce : Delimiters} {name : Option String}
  {tokens : List Token}

theorem scan_append (unblank : pair.Unblank) (ends : first.toList.getLast? = some '\n')
    (complete : (scan pair first.toList).ending = .complete inForce) :
    scan pair (first ++ second).toList =
      ((scan inForce second.toList).moved first.length).prependAll
        (scan pair first.toList).pieces := by
  rw [String.toList_append, ← String.length_toList]
  exact scan_append_of_clear complete unblank (fun _ step => step.unblank)
    (fun _ isUnblank => isUnblank) (fun _ isUnblank => isUnblank.clearOf ends) second.toList

theorem settle_scan_append (unblank : pair.Unblank) (ends : first.toList.getLast? = some '\n')
    (complete : (scan pair first.toList).ending = .complete inForce) (more : List Piece) :
    settle {} ((scan pair first.toList).pieces ++ more) =
      settle {} (scan pair first.toList).pieces ++ settle {} more := by
  obtain ⟨before, start, pieces⟩ := (readsAll_scan complete).last_of_lineFeed unblank ends rfl
  rw [pieces, List.append_assoc]
  exact settle_append_lineFeed {} before more start

theorem tokenize_append (unblank : pair.Unblank) (ends : first.toList.getLast? = some '\n')
    (tokenized : tokenize first pair name = .ok tokens)
    (complete : (scan pair first.toList).ending = .complete inForce) :
    tokenize (first ++ second) pair name =
      match tokenize second inForce name with
      | .ok more => .ok (tokens ++ more.map (Token.moved first.length))
      | .error fault => .error (fault.behind first) := by
  obtain ⟨-, matched, rfl⟩ := tokenize_eq_ok_iff.1 tokenized
  have length : (first ++ second).toList.length = second.toList.length + first.length := by
    simp only [String.toList_append, List.length_append, String.length_toList, Nat.add_comm]
  have settled := settle_moved first.length {} (scan inForce second.toList).pieces
  simp only [tokenize, scan_append unblank ends complete, Scan.prependAll, Scan.moved,
    openAfterAll_append, matched, Except.bind, openAfterAll_moved,
    settle_scan_append unblank ends complete, length]
  cases openAfterAll [] (scan inForce second.toList).pieces with
  | error mismatch => rfl
  | ok opened =>
    have kept : (Except.ok opened : Except Mismatch _).mapError (Mismatch.moved first.length) =
        .ok opened := rfl
    rw [kept]
    cases (scan inForce second.toList).ending with
    | unclosedTag => rfl
    | badDelimiters words => rfl
    | complete last =>
      dsimp only
      cases opened.reverse with
      | cons outermost inner => rfl
      | nil => exact congrArg (fun more => Except.ok (_ ++ more)) settled

end Parts

end Mustache
