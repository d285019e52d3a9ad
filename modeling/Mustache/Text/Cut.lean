set_option autoImplicit false

namespace Mustache

def cutAt (mark : Char) : List Char → List (List Char)
  | [] => [[]]
  | c :: rest =>
      if c = mark then [] :: cutAt mark rest
      else match cutAt mark rest with
        | [] => [[c]]
        | piece :: pieces => (c :: piece) :: pieces

def joinWith (mark : Char) : List (List Char) → List Char
  | [] => []
  | [piece] => piece
  | piece :: pieces => piece ++ mark :: joinWith mark pieces

@[simp] theorem cutAt_nil (mark : Char) : cutAt mark [] = [[]] := rfl

@[simp] theorem cutAt_mark (mark : Char) (rest : List Char) :
    cutAt mark (mark :: rest) = [] :: cutAt mark rest := by
  simp [cutAt]

theorem cutAt_ne_nil (mark : Char) (text : List Char) : cutAt mark text ≠ [] := by
  cases text with
  | nil => simp [cutAt]
  | cons c rest =>
      unfold cutAt
      split
      · simp
      · split <;> simp

theorem cutAt_cons_of_ne {mark c : Char} (other : c ≠ mark) {rest piece : List Char}
    {pieces : List (List Char)} (cut : cutAt mark rest = piece :: pieces) :
    cutAt mark (c :: rest) = (c :: piece) :: pieces := by
  simp [cutAt, other, cut]

theorem joinWith_cons_of_ne_nil (mark : Char) (piece : List Char) {pieces : List (List Char)}
    (more : pieces ≠ []) :
    joinWith mark (piece :: pieces) = piece ++ mark :: joinWith mark pieces := by
  cases pieces with
  | nil => exact absurd rfl more
  | cons next others => rfl

theorem joinWith_cutAt (mark : Char) (text : List Char) :
    joinWith mark (cutAt mark text) = text := by
  induction text with
  | nil => rfl
  | cons c rest ih =>
      by_cases same : c = mark
      · subst same
        rw [cutAt_mark, joinWith_cons_of_ne_nil _ _ (cutAt_ne_nil _ _), ih]
        rfl
      · obtain ⟨piece, pieces, cut⟩ := List.exists_cons_of_ne_nil (cutAt_ne_nil mark rest)
        rw [cutAt_cons_of_ne same cut]
        rw [cut] at ih
        cases pieces with
        | nil => simpa [joinWith] using ih
        | cons next others => simpa [joinWith] using ih

theorem length_cutAt (mark : Char) (text : List Char) :
    (cutAt mark text).length = text.count mark + 1 := by
  induction text with
  | nil => rfl
  | cons c rest ih =>
      by_cases same : c = mark
      · subst same
        simp [ih]
      · obtain ⟨piece, pieces, cut⟩ := List.exists_cons_of_ne_nil (cutAt_ne_nil mark rest)
        rw [cutAt_cons_of_ne same cut, List.count_cons_of_ne (by simpa using same)]
        rw [cut] at ih
        simpa using ih

theorem mark_notMem_of_mem_cutAt {mark : Char} {text piece : List Char}
    (member : piece ∈ cutAt mark text) : mark ∉ piece := by
  induction text generalizing piece with
  | nil => simp_all
  | cons c rest ih =>
      by_cases same : c = mark
      · subst same
        rw [cutAt_mark, List.mem_cons] at member
        rcases member with rfl | later
        · simp
        · exact ih later
      · obtain ⟨first, others, cut⟩ := List.exists_cons_of_ne_nil (cutAt_ne_nil mark rest)
        rw [cutAt_cons_of_ne same cut, List.mem_cons] at member
        rcases member with rfl | later
        · have clean : mark ∉ first := ih (by simp [cut])
          simp [clean, Ne.symm same]
        · exact ih (by simp [cut, later])

theorem cutAt_append_mark {mark : Char} {piece : List Char} (free : mark ∉ piece)
    (rest : List Char) : cutAt mark (piece ++ mark :: rest) = piece :: cutAt mark rest := by
  induction piece with
  | nil => exact cutAt_mark _ rest
  | cons c piece ih =>
      rw [List.mem_cons, not_or] at free
      exact cutAt_cons_of_ne (Ne.symm free.1) (ih free.2)

theorem cutAt_of_notMem {mark : Char} {text : List Char} (free : mark ∉ text) :
    cutAt mark text = [text] := by
  have one := length_cutAt mark text
  rw [List.count_eq_zero.2 free] at one
  obtain ⟨piece, only⟩ := List.length_eq_one_iff.1 one
  have whole := joinWith_cutAt mark text
  rw [only] at whole
  rw [only, ← whole]
  rfl

theorem cutAt_joinWith {mark : Char} {pieces : List (List Char)} (some : pieces ≠ [])
    (free : ∀ piece ∈ pieces, mark ∉ piece) : cutAt mark (joinWith mark pieces) = pieces := by
  induction pieces with
  | nil => exact absurd rfl some
  | cons piece rest ih =>
      rw [List.forall_mem_cons] at free
      by_cases last : rest = []
      · rw [last]
        exact cutAt_of_notMem free.1
      · rw [joinWith_cons_of_ne_nil mark piece last, cutAt_append_mark free.1, ih last free.2]

end Mustache
