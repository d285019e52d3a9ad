set_option autoImplicit false

namespace Mustache

variable {α : Type} [BEq α]

def aroundFirst? (part : List α) : List α → Option (List α × List α)
  | [] => if part.isEmpty then some ([], []) else none
  | c :: rest =>
      if part.isPrefixOf (c :: rest) then some ([], (c :: rest).drop part.length)
      else (aroundFirst? part rest).map fun (before, after) => (c :: before, after)

def aroundLast? (part whole : List α) : Option (List α × List α) :=
  (aroundFirst? part.reverse whole.reverse).map fun (after, before) =>
    (before.reverse, after.reverse)

def occursIn (part whole : List α) : Bool :=
  (aroundFirst? part whole).isSome

theorem eq_of_aroundFirst? {α : Type} [DecidableEq α] {part whole before after : List α}
    (found : aroundFirst? part whole = some (before, after)) : whole = before ++ part ++ after := by
  induction whole generalizing before with
  | nil =>
      simp only [aroundFirst?] at found
      split at found
      · simp_all
      · simp at found
  | cons c rest ih =>
      simp only [aroundFirst?] at found
      split at found
      · rename_i here
        obtain ⟨tail, whole⟩ := List.isPrefixOf_iff_prefix.mp here
        simp only [Option.some.injEq, Prod.mk.injEq] at found
        obtain ⟨rfl, rfl⟩ := found
        simp [← whole]
      · obtain ⟨pair, later, same⟩ := Option.map_eq_some_iff.mp found
        simp only [Prod.mk.injEq] at same
        obtain ⟨rfl, rfl⟩ := same
        simp [ih later]

end Mustache
