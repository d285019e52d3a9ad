/-!
Similarity of sequences: how much of two sequences is covered by their matching blocks. The longest
common block comes first, and the parts before and after it are matched in the same way.
-/

set_option autoImplicit false

namespace Mustache

variable {α : Type} [BEq α]

structure Block where
  left : Nat
  right : Nat
  length : Nat

/-- From the lengths of the common blocks that end before each item of `right` and at an item of the
left sequence, those that end at the next item of the left sequence. -/
def extendRuns (common : α → Bool) (c : α) : Nat → List Nat → List α → List Nat
  | _, _, [] => []
  | before, runs, d :: right =>
      let run := if d == c && !common d then before + 1 else 0
      run :: extendRuns common c (runs.headD 0) runs.tail right

def improve (best : Block) (leftEnd : Nat) : Nat → List Nat → Block
  | _, [] => best
  | rightEnd, run :: runs =>
      let best :=
        -- A later block has to be longer.
        if run > best.length then ⟨leftEnd + 1 - run, rightEnd + 1 - run, run⟩ else best
      improve best leftEnd (rightEnd + 1) runs

def longestFrom (common : α → Bool) (right : List α) (best : Block) (leftEnd : Nat)
    (runs : List Nat) : List α → Block
  | [] => best
  | c :: left =>
      let runs := extendRuns common c 0 runs right
      longestFrom common right (improve best leftEnd 0 runs) (leftEnd + 1) runs left

def agreement : List α → List α → Nat
  | c :: left, d :: right => if c == d then agreement left right + 1 else 0
  | _, _ => 0

def longestBlock (common : α → Bool) (left right : List α) : Block :=
  let found := longestFrom common right ⟨0, 0, 0⟩ 0 [] left
  -- Common items around the block may widen it.
  let before := agreement (left.take found.left).reverse (right.take found.right).reverse
  let after := agreement (left.drop (found.left + found.length))
    (right.drop (found.right + found.length))
  ⟨found.left - before, found.right - before, before + found.length + after⟩

def matchCount (common : α → Bool) : Nat → List α → List α → Nat
  | 0, _, _ => 0
  -- Each block shortens the sequences, so as many rounds as the left one has items suffice.
  | rounds + 1, left, right =>
      let block := longestBlock common left right
      if block.length = 0 then 0
      else matchCount common rounds (left.take block.left) (right.take block.right) +
        block.length +
        matchCount common rounds (left.drop (block.left + block.length))
          (right.drop (block.right + block.length))

def isCommonIn (items : List α) (item : α) : Bool :=
  -- In a sequence of at least two hundred items, those that make up more than one in a hundred are
  -- too common to begin a block.
  200 ≤ items.length && items.length / 100 + 1 < items.count item

structure Similarity where
  total : Nat
  matching : Nat

def similarity (wanted candidate : List α) : Similarity :=
  ⟨wanted.length + candidate.length,
    2 * matchCount (isCommonIn wanted) candidate.length candidate wanted⟩

namespace Similarity

def isClose (s : Similarity) : Bool :=
  s.total = 0 || 3 * s.total ≤ 5 * s.matching

def atLeast (s t : Similarity) : Bool :=
  t.matching * s.total ≤ s.matching * t.total

end Similarity

def closest? {β : Type} (wanted : List α) (candidates : List (β × List α)) : Option β :=
  -- The last of several that are equally close is taken.
  let scored := candidates.map fun (candidate, items) => (candidate, similarity wanted items)
  let close := scored.filter fun entry => entry.2.isClose
  (close.foldl (fun best entry =>
    match best with
    | none => some entry
    | some held => if entry.2.atLeast held.2 then some entry else best) none).map (·.1)

theorem exists_of_closest? {β : Type} {wanted : List α} {candidates : List (β × List α)} {best : β}
    (found : closest? wanted candidates = some best) : ∃ items, (best, items) ∈ candidates := by
  have among (entries : List (β × Similarity)) (start : Option (β × Similarity))
      {entry : β × Similarity} (picked : entries.foldl (fun best entry =>
        match best with
        | none => some entry
        | some held => if entry.2.atLeast held.2 then some entry else best) start = some entry) :
      start = some entry ∨ entry ∈ entries := by
    induction entries generalizing start with
    | nil => exact .inl picked
    | cons first rest ih =>
      rcases ih _ picked with here | later
      · dsimp only at here
        split at here
        · exact .inr (by simp [Option.some.inj here])
        · split at here
          · exact .inr (by simp [Option.some.inj here])
          · exact .inl here
      · exact .inr (List.mem_cons_of_mem _ later)
  obtain ⟨entry, picked, rfl⟩ := Option.map_eq_some_iff.1 found
  have close := (among _ none picked).resolve_left nofun
  obtain ⟨⟨candidate, items⟩, member, rfl⟩ := List.mem_map.1 (List.mem_filter.1 close).1
  exact ⟨items, member⟩

end Mustache
