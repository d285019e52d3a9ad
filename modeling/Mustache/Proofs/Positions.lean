import Mathlib.Data.Int.ConditionallyCompleteOrder
import Mathlib.Data.Int.SuccPred
import Mathlib.Data.Prod.Lex
import Mustache.Report

set_option autoImplicit false

namespace Mustache

def endedLines (lines : List (List Char)) : List Char :=
  lines.flatMap (· ++ ['\n'])

/-- The offset at which a line starts, of the lines that line feeds end. -/
def lineStart (source : List Char) (line : Nat) : Nat :=
  (endedLines ((cutLines source).take (line - 1))).length

section Lines

variable {source left right line : List Char} {above below : List (List Char)}

@[simp] theorem endedLines_nil : endedLines [] = [] := rfl

@[simp] theorem endedLines_cons (line : List Char) (lines : List (List Char)) :
    endedLines (line :: lines) = line ++ '\n' :: endedLines lines := by
  simp [endedLines]

theorem joinLines_append (above : List (List Char)) (line : List Char)
    (below : List (List Char)) :
    joinLines (above ++ line :: below) = endedLines above ++ joinLines (line :: below) := by
  induction above with
  | nil => rfl
  | cons first above ih =>
    rw [List.cons_append, joinLines, joinWith_cons_of_ne_nil _ _ (by simp), ← joinLines, ih]
    simp

theorem eq_of_cutLines (cut : cutLines source = above ++ line :: below) :
    source = endedLines above ++ joinLines (line :: below) := by
  have whole : joinLines (cutLines source) = source := joinWith_cutAt '\n' source
  rw [← whole, cut, joinLines_append]

theorem exists_cutLines_at {offset : Nat} (inside : offset ≤ source.length) :
    ∃ above left right below, cutLines source = above ++ (left ++ right) :: below ∧
      offset = (endedLines above ++ left).length := by
  induction source generalizing offset with
  | nil => exact ⟨[], [], [], [], rfl, by simpa using inside⟩
  | cons c rest ih =>
    cases offset with
    | zero =>
      obtain ⟨line, below, cut⟩ := List.exists_cons_of_ne_nil (cutAt_ne_nil '\n' (c :: rest))
      exact ⟨[], [], line, below, cut, rfl⟩
    | succ offset =>
      obtain ⟨above, left, right, below, cut, place⟩ :=
        @ih offset (by simpa using inside)
      -- A line feed ends an empty first line; any other character joins the first line.
      by_cases lineFeed : c = '\n'
      · subst lineFeed
        refine ⟨[] :: above, left, right, below, ?_, by simp [place]⟩
        rw [cutLines, cutAt_mark, ← cutLines, cut, List.cons_append]
      · cases above with
        | nil =>
          exact ⟨[], c :: left, right, below, cutAt_cons_of_ne lineFeed cut, by simp [place]⟩
        | cons line above =>
          refine ⟨(c :: line) :: above, left, right, below, ?_, by simp [place]⟩
          exact cutAt_cons_of_ne lineFeed cut

end Lines

section Positions

variable {source left right : List Char} {above below : List (List Char)}

theorem clampOffset_eq (source : List Char) (offset : Int) :
    (clampOffset source offset : Int) = max 0 (min offset source.length) := by
  simp only [clampOffset]
  omega

theorem clampOffset_le (source : List Char) (offset : Int) :
    clampOffset source offset ≤ source.length :=
  Nat.min_le_right _ _

theorem clampOffset_of_le {offset : Nat} (inside : offset ≤ source.length) :
    clampOffset source offset = offset := by
  simpa [clampOffset] using inside

theorem position_clampOffset (source : List Char) (offset : Int) :
    position source (clampOffset source offset) = position source offset := by
  simp only [position, clampOffset_of_le (clampOffset_le source offset)]

theorem count_endedLines {lines : List (List Char)} (free : ∀ line ∈ lines, '\n' ∉ line) :
    (endedLines lines).count '\n' = lines.length := by
  induction lines with
  | nil => rfl
  | cons line lines ih =>
    have here := List.count_eq_zero.2 (free line (by simp))
    have rest := ih fun other member => free other (by simp [member])
    simp [List.count_append, here, rest]

theorem takeWhile_reverse_endedLines (lines : List (List Char)) :
    (endedLines lines).reverse.takeWhile (· ≠ '\n') = [] := by
  rcases List.eq_nil_or_concat lines with rfl | ⟨front, line, rfl⟩
  · rfl
  · simp [endedLines]

theorem position_of_cutLines (cut : cutLines source = above ++ (left ++ right) :: below) :
    position source (endedLines above ++ left).length = (above.length + 1, left.length) := by
  have free (line : List Char) (member : line ∈ above ++ (left ++ right) :: below) :
      '\n' ∉ line := mark_notMem_of_mem_cutAt (cut ▸ member)
  have freeAbove : ∀ line ∈ above, '\n' ∉ line :=
    fun line member => free line (by simp [member])
  have freeLeft : '\n' ∉ left := by
    have whole := free (left ++ right) (by simp)
    exact fun member => whole (by simp [member])
  obtain ⟨behind, whole⟩ := prefix_joinLines (left ++ right) below
  have before : source = (endedLines above ++ left) ++ (right ++ behind) := by
    rw [eq_of_cutLines cut, ← whole]
    simp
  have taken : source.take (clampOffset source (endedLines above ++ left).length) =
      endedLines above ++ left := by
    rw [clampOffset_of_le (by rw [before]; simp)]
    nth_rewrite 1 [before]
    exact List.take_left
  have onLeft : ∀ c ∈ left.reverse, decide (c ≠ '\n') = true := by
    intro c member
    have : c ≠ '\n' := fun same => freeLeft (same ▸ List.mem_reverse.1 member)
    simpa using this
  simp only [position, taken]
  rw [List.count_append, count_endedLines freeAbove, List.count_eq_zero.2 freeLeft,
    List.reverse_append, List.takeWhile_append_of_pos onLeft, takeWhile_reverse_endedLines]
  simp

theorem exists_place (source : List Char) (offset : Int) :
    ∃ above left right below, cutLines source = above ++ (left ++ right) :: below ∧
      clampOffset source offset = (endedLines above ++ left).length ∧
      position source offset = (above.length + 1, left.length) := by
  obtain ⟨above, left, right, below, cut, place⟩ :=
    exists_cutLines_at (clampOffset_le source offset)
  refine ⟨above, left, right, below, cut, place, ?_⟩
  rw [← position_clampOffset, place, position_of_cutLines cut]

theorem position_succ {offset : Nat} (inside : offset < source.length) :
    position source (offset + 1 : Nat) =
      if source[offset] = '\n' then ((position source offset).1 + 1, 0)
      else ((position source offset).1, (position source offset).2 + 1) := by
  simp only [position, clampOffset_of_le inside, clampOffset_of_le inside.le]
  rw [List.take_add_one, List.getElem?_eq_getElem inside, Option.toList_some]
  generalize source.take offset = before
  split
  next lineFeed => simp [lineFeed]
  next other => simp [other]

theorem position_lt_succ {offset : Nat} (inside : offset < source.length) :
    toLex (position source offset) < toLex (position source (offset + 1 : Nat)) := by
  rw [position_succ inside, Prod.Lex.toLex_lt_toLex]
  split <;> simp

theorem position_strictMonoOn (source : List Char) :
    StrictMonoOn (fun offset : Int => toLex (position source offset))
      (Set.Icc 0 source.length) := by
  apply strictMonoOn_of_lt_succ Set.ordConnected_Icc
  intro offset _ inside next
  obtain ⟨offset, rfl⟩ := Int.eq_ofNat_of_zero_le inside.1
  have room : offset < source.length := by
    have := next.2
    simp only [Order.succ_eq_add_one] at this
    omega
  exact position_lt_succ room

theorem position_identifies (source : List Char) :
    (∀ offset : Int,
      (clampOffset source offset : Int) = max 0 (min offset source.length) ∧
      (position source offset).1 = 1 + (source.take (clampOffset source offset)).count '\n' ∧
      lineStart source (position source offset).1 + (position source offset).2 =
        clampOffset source offset ∧
      ∃ line, (cutLines source)[(position source offset).1 - 1]? = some line ∧
        (position source offset).2 ≤ line.length) ∧
    Set.InjOn (fun offset : Int => position source offset) (Set.Icc 0 source.length) ∧
    StrictMonoOn (fun offset : Int => toLex (position source offset))
      (Set.Icc 0 source.length) := by
  have increasing := position_strictMonoOn source
  refine ⟨fun offset => ?_, increasing.injOn, increasing⟩
  obtain ⟨above, left, right, below, cut, place, found⟩ := exists_place source offset
  refine ⟨clampOffset_eq source offset, Nat.add_comm _ _, ?_, left ++ right, ?_, ?_⟩
  · rw [found, place]
    simp [lineStart, cut]
  · simp [found, cut]
  · simp [found]

end Positions

end Mustache
