import Mustache.Delimiters

set_option autoImplicit false

namespace Mustache

def sigils : List Char := ['!', '#', '&', '/', '=', '>', '^', '{']

inductive Pattern where
  | blanks
  | someBlanks
  | sigil
  | opener (literal : List Char)
  | closer (literal : List Char)
  deriving DecidableEq

namespace Pattern

def blankRun (text : List Char) : Nat :=
  (text.takeWhile isBlank).length

def literalLength? (literal text : List Char) : Option Nat :=
  if literal.isPrefixOf text then some literal.length else none

def closerLength? (literal : List Char) : List Char → Option Nat
  | [] => literalLength? literal []
  -- White space that the literal itself begins with is given back to it.
  | c :: rest =>
      (if isBlank c then (closerLength? literal rest).map (· + 1) else none).or
        (literalLength? literal (c :: rest))

def length? (text : List Char) : Pattern → Option Nat
  | blanks => some (blankRun text)
  | someBlanks => if blankRun text = 0 then none else some (blankRun text)
  | sigil => match text with
      | [] => none
      | c :: _ => if sigils.contains c then some 1 else none
  | opener literal =>
      if literal.isPrefixOf text then
        some (literal.length + blankRun (text.drop literal.length))
      else none
  | closer literal => closerLength? literal text

def distance (pattern : Pattern) : List Char → Nat
  -- Without a match it is the whole text.
  | [] => 0
  | c :: rest => if (pattern.length? (c :: rest)).isSome then 0 else distance pattern rest + 1

theorem blankRun_le (text : List Char) : blankRun text ≤ text.length := by
  simpa [blankRun] using (List.takeWhile_sublist isBlank).length_le

theorem literalLength?_eq_some {literal text : List Char} {n : Nat}
    (found : literalLength? literal text = some n) :
    n = literal.length ∧ ∃ rest, text = literal ++ rest := by
  simp only [literalLength?, Option.ite_none_right_eq_some, Option.some.injEq,
    List.isPrefixOf_iff_prefix] at found
  obtain ⟨⟨rest, whole⟩, size⟩ := found
  exact ⟨size.symm, rest, whole.symm⟩

theorem closerLength?_eq_some {literal text : List Char} {n : Nat}
    (found : closerLength? literal text = some n) :
    ∃ blanks rest, text = blanks ++ literal ++ rest ∧ (∀ c ∈ blanks, isBlank c = true) ∧
      n = blanks.length + literal.length := by
  induction text generalizing n with
  | nil =>
      obtain ⟨rfl, rest, whole⟩ := literalLength?_eq_some found
      exact ⟨[], rest, by simpa using whole, by simp, by simp⟩
  | cons c text ih =>
      rw [closerLength?, Option.or_eq_some_iff] at found
      rcases found with inner | ⟨_, here⟩
      · obtain ⟨blank, moved⟩ := Option.ite_none_right_eq_some.1 inner
        obtain ⟨m, later, rfl⟩ := Option.map_eq_some_iff.1 moved
        obtain ⟨blanks, rest, whole, allBlank, rfl⟩ := ih later
        refine ⟨c :: blanks, rest, by simp [whole], ?_, by simp only [List.length_cons]; omega⟩
        intro d member
        rcases List.mem_cons.1 member with rfl | member
        · exact blank
        · exact allBlank d member
      · obtain ⟨rfl, rest, whole⟩ := literalLength?_eq_some here
        exact ⟨[], rest, by simpa using whole, by simp, by simp⟩

theorem length?_le {pattern : Pattern} {text : List Char} {n : Nat}
    (found : pattern.length? text = some n) : n ≤ text.length := by
  cases pattern with
  | blanks =>
      obtain rfl := Option.some.inj found
      exact blankRun_le text
  | someBlanks =>
      simp only [length?, Option.ite_none_left_eq_some, Option.some.injEq] at found
      obtain ⟨_, rfl⟩ := found
      exact blankRun_le text
  | sigil =>
      cases text with
      | nil => simp [length?] at found
      | cons c rest =>
          simp only [length?, Option.ite_none_right_eq_some, Option.some.injEq] at found
          obtain ⟨_, rfl⟩ := found
          simp
  | opener literal =>
      simp only [length?, Option.ite_none_right_eq_some, Option.some.injEq,
        List.isPrefixOf_iff_prefix] at found
      obtain ⟨⟨after, rfl⟩, rfl⟩ := found
      have tail := blankRun_le after
      simp only [List.drop_left, List.length_append]
      omega
  | closer literal =>
      obtain ⟨blanks, after, rfl, _, rfl⟩ := closerLength?_eq_some found
      simp only [List.length_append]
      omega

theorem length?_drop_of_lt_distance {pattern : Pattern} {text : List Char} {n : Nat}
    (before : n < pattern.distance text) : pattern.length? (text.drop n) = none := by
  induction text generalizing n with
  | nil => simp [distance] at before
  | cons c rest ih =>
      unfold distance at before
      split at before
      next => omega
      next missed =>
        cases n with
        | zero => simpa using missed
        | succ m => simpa using ih (by omega)

theorem distance_le (pattern : Pattern) (text : List Char) :
    pattern.distance text ≤ text.length := by
  induction text with
  | nil => simp [distance]
  | cons c rest ih =>
      unfold distance
      split
      · omega
      · simpa using ih

end Pattern

namespace Delimiters

def openPattern (pair : Delimiters) : Pattern := .opener pair.opening

def closePattern (pair : Delimiters) : Pattern := .closer pair.closing

def closeBracePattern (pair : Delimiters) : Pattern := .closer ('}' :: pair.closing)

end Delimiters

structure Cursor where
  offset : Nat
  rest : List Char

namespace Cursor

def start (text : List Char) : Cursor := ⟨0, text⟩

def advance (cursor : Cursor) (n : Nat) : Cursor :=
  ⟨cursor.offset + n, cursor.rest.drop n⟩

def take (cursor : Cursor) (pattern : Pattern) : List Char × Cursor :=
  let n := (pattern.length? cursor.rest).getD 0
  (cursor.rest.take n, cursor.advance n)

def takeUntil (cursor : Cursor) (pattern : Pattern) : List Char × Cursor :=
  let n := pattern.distance cursor.rest
  (cursor.rest.take n, cursor.advance n)

theorem take_append_rest (cursor : Cursor) (pattern : Pattern) :
    (cursor.take pattern).1 ++ (cursor.take pattern).2.rest = cursor.rest := by
  simp [take, advance]

theorem takeUntil_append_rest (cursor : Cursor) (pattern : Pattern) :
    (cursor.takeUntil pattern).1 ++ (cursor.takeUntil pattern).2.rest = cursor.rest := by
  simp [takeUntil, advance]

theorem offset_take (cursor : Cursor) (pattern : Pattern) :
    (cursor.take pattern).2.offset = cursor.offset + (cursor.take pattern).1.length := by
  cases found : pattern.length? cursor.rest with
  | none => simp [take, advance, found]
  | some n =>
      have bound := Pattern.length?_le found
      simp only [take, advance, found, Option.getD_some, List.length_take]
      omega

theorem offset_takeUntil (cursor : Cursor) (pattern : Pattern) :
    (cursor.takeUntil pattern).2.offset =
      cursor.offset + (cursor.takeUntil pattern).1.length := by
  have bound := pattern.distance_le cursor.rest
  simp only [takeUntil, advance, List.length_take]
  omega

def skip (cursor : Cursor) (pattern : Pattern) : Cursor :=
  (cursor.take pattern).2

def skipUntil (cursor : Cursor) (pattern : Pattern) : Cursor :=
  (cursor.takeUntil pattern).2

def reach (cursor : Cursor) : Nat :=
  cursor.offset + cursor.rest.length

@[simp] theorem reach_start (text : List Char) : (start text).reach = text.length := by
  simp [reach, start]

@[simp] theorem reach_take (cursor : Cursor) (pattern : Pattern) :
    (cursor.take pattern).2.reach = cursor.reach := by
  have whole := congrArg List.length (cursor.take_append_rest pattern)
  rw [List.length_append] at whole
  simp only [reach, offset_take]
  omega

@[simp] theorem reach_takeUntil (cursor : Cursor) (pattern : Pattern) :
    (cursor.takeUntil pattern).2.reach = cursor.reach := by
  have whole := congrArg List.length (cursor.takeUntil_append_rest pattern)
  rw [List.length_append] at whole
  simp only [reach, offset_takeUntil]
  omega

@[simp] theorem reach_skip (cursor : Cursor) (pattern : Pattern) :
    (cursor.skip pattern).reach = cursor.reach :=
  reach_take cursor pattern

@[simp] theorem reach_skipUntil (cursor : Cursor) (pattern : Pattern) :
    (cursor.skipUntil pattern).reach = cursor.reach :=
  reach_takeUntil cursor pattern

end Cursor

end Mustache
