import Mustache.Proofs.Positions
import Mustache.Report

set_option autoImplicit false

namespace Mustache

def withoutReturn (line : List Char) : List Char :=
  if line.getLast? = some '\r' then line.dropLast else line

def unbroken (line : List Char) : Bool :=
  line.all (!isLineBreak ·)

/-- Nothing breaks the line before the line feed that ends it, or the pair of a carriage return and
a line feed. -/
def PlainLine (line : List Char) : Prop :=
  unbroken (withoutReturn line) = true

/-- The line of a source that an offset is in, its end included. -/
def HeldBy (source : List Char) (offset : Int) (line : List Char) : Prop :=
  let number := (position source offset).1
  (cutLines source)[number - 1]? = some line ∧
    lineStart source number ≤ clampOffset source offset ∧
    clampOffset source offset ≤ lineStart source number + line.length

section Breaks

variable {front line : List Char} {c : Char}

theorem withoutReturn_append_return (front : List Char) :
    withoutReturn (front ++ ['\r']) = front := by
  simp [withoutReturn]

theorem eq_withoutReturn (line : List Char) :
    line = withoutReturn line ∨ line = withoutReturn line ++ ['\r'] := by
  by_cases ended : line.getLast? = some '\r'
  · obtain ⟨front, rfl⟩ := List.getLast?_eq_some_iff.1 ended
    exact .inr (by rw [withoutReturn_append_return])
  · exact .inl (by simp [withoutReturn, ended])

theorem withoutReturn_begins (line : List Char) : withoutReturn line <+: line := by
  rcases eq_withoutReturn line with same | ended
  · exact ⟨[], by simpa using same.symm⟩
  · exact ⟨_, ended.symm⟩

theorem breakLinesFrom_cons_of_break (isBreak : isLineBreak c = true) {rest : List Char}
    (noPair : c = '\r' → rest.head? ≠ some '\n') (line : List Char) :
    breakLinesFrom line (c :: rest) = line.reverse :: breakLines rest := by
  unfold breakLinesFrom
  split
  next => contradiction
  next same => simp_all
  next same =>
    obtain ⟨rfl, rfl⟩ := List.cons.inj same
    simp [isBreak, breakLines]

theorem breakLinesFrom_cons_of_other (other : isLineBreak c = false) (line rest : List Char) :
    breakLinesFrom line (c :: rest) = breakLinesFrom (c :: line) rest := by
  conv_lhs => unfold breakLinesFrom
  split
  next => contradiction
  next same =>
    obtain ⟨rfl, -⟩ := List.cons.inj same
    contradiction
  next same =>
    obtain ⟨rfl, rfl⟩ := List.cons.inj same
    simp [other]

theorem breakLinesFrom_append (free : unbroken front = true) (line rest : List Char) :
    breakLinesFrom line (front ++ rest) = breakLinesFrom (front.reverse ++ line) rest := by
  induction front generalizing line with
  | nil => rfl
  | cons c front ih =>
    simp only [unbroken, List.all_cons, Bool.and_eq_true, Bool.not_eq_true'] at free
    rw [List.cons_append, breakLinesFrom_cons_of_other free.1, ih free.2]
    simp

theorem breakLines_append_break (free : unbroken front = true) (isBreak : isLineBreak c = true)
    {rest : List Char} (noPair : c = '\r' → rest.head? ≠ some '\n') :
    breakLines (front ++ c :: rest) = front :: breakLines rest := by
  rw [breakLines, breakLinesFrom_append free, breakLinesFrom_cons_of_break isBreak noPair]
  simp

theorem breakLines_append_pair (free : unbroken front = true) (rest : List Char) :
    breakLines (front ++ '\r' :: '\n' :: rest) = front :: breakLines rest := by
  rw [breakLines, breakLinesFrom_append free, breakLinesFrom, breakLines]
  simp

theorem breakLines_of_unbroken (free : unbroken line = true) (nonempty : line ≠ []) :
    breakLines line = [line] := by
  have whole := breakLinesFrom_append free [] []
  rw [List.append_nil] at whole
  rw [breakLines, whole]
  simp [breakLinesFrom, nonempty]

theorem breakLines_append_lineFeed (plain : PlainLine line)
    (rest : List Char) :
    breakLines (line ++ '\n' :: rest) = withoutReturn line :: breakLines rest := by
  rcases eq_withoutReturn line with same | ended
  · rw [PlainLine, ← same] at plain
    rw [← same]
    exact breakLines_append_break plain (by decide) (by simp)
  · rw [ended, withoutReturn_append_return, List.append_assoc]
    exact breakLines_append_pair plain rest

theorem breakLines_lastLine (plain : PlainLine line)
    (nonempty : line ≠ []) : breakLines line = [withoutReturn line] := by
  rcases eq_withoutReturn line with same | ended
  · rw [PlainLine, ← same] at plain
    rw [← same]
    exact breakLines_of_unbroken plain nonempty
  · rw [ended, withoutReturn_append_return]
    exact breakLines_append_break plain (by decide) (by simp)

theorem breakLines_endedLines {lines : List (List Char)}
    (plain : ∀ line ∈ lines, PlainLine line) (rest : List Char) :
    breakLines (endedLines lines ++ rest) = lines.map withoutReturn ++ breakLines rest := by
  induction lines with
  | nil => rfl
  | cons line lines ih =>
    have here := plain line (by simp)
    have later := ih fun other member => plain other (by simp [member])
    rw [endedLines_cons, List.append_assoc, List.cons_append, breakLines_append_lineFeed here,
      later, List.map_cons, List.cons_append]

theorem exists_breakLines_append_break (free : unbroken front = true)
    (isBreak : isLineBreak c = true) (rest : List Char) :
    ∃ later, breakLines (front ++ c :: rest) = front :: later := by
  by_cases pair : c = '\r' ∧ rest.head? = some '\n'
  · obtain ⟨rfl, first⟩ := pair
    obtain ⟨more, rfl⟩ := List.head?_eq_some_iff.1 first
    exact ⟨_, breakLines_append_pair free more⟩
  · exact ⟨_, breakLines_append_break free isBreak fun same first => pair ⟨same, first⟩⟩

theorem exists_breakLines_of_broken (broken : ¬ PlainLine line) (rest : List Char) :
    ∃ text later, breakLines (line ++ rest) = text :: later ∧ text ≠ withoutReturn line := by
  obtain ⟨c, found⟩ : ∃ c, (withoutReturn line).find? isLineBreak = some c := by
    simpa [PlainLine, unbroken, ← Option.isSome_iff_exists] using broken
  obtain ⟨isBreak, front, back, split, free⟩ := List.find?_eq_some_iff_append.1 found
  obtain ⟨tail, behind⟩ := withoutReturn_begins line
  have whole : line ++ rest = front ++ c :: (back ++ tail ++ rest) := by
    rw [← behind, split]
    simp
  have free : unbroken front = true := by simpa [unbroken] using free
  obtain ⟨later, shown⟩ := exists_breakLines_append_break free isBreak (back ++ tail ++ rest)
  refine ⟨front, later, whole ▸ shown, ?_⟩
  simp [split]

end Breaks

section Lines

variable {source line text : List Char} {above below : List (List Char)}

theorem getElem?_breakLines (cut : cutLines source = above ++ line :: below)
    (plain : ∀ line ∈ above, PlainLine line) :
    (breakLines source)[above.length]? = (breakLines (joinLines (line :: below)))[0]? := by
  rw [eq_of_cutLines cut, breakLines_endedLines plain, List.getElem?_append_right (by simp)]
  simp

theorem shown_of_plain (cut : cutLines source = above ++ line :: below)
    (plainAbove : ∀ line ∈ above, PlainLine line)
    (plain : PlainLine line)
    (shown : (breakLines source)[above.length]? = some text) : text = withoutReturn line := by
  rw [getElem?_breakLines cut plainAbove] at shown
  cases below with
  | cons next below =>
    have whole :
        joinLines (line :: next :: below) = line ++ '\n' :: joinLines (next :: below) := rfl
    rw [whole, breakLines_append_lineFeed plain] at shown
    simpa using shown.symm
  | nil =>
    change (breakLines line)[0]? = some text at shown
    by_cases nonempty : line = []
    · subst nonempty
      cases shown
    · rw [breakLines_lastLine plain nonempty] at shown
      simpa using shown.symm

theorem exists_shown_of_broken (cut : cutLines source = above ++ line :: below)
    (plainAbove : ∀ line ∈ above, PlainLine line)
    (broken : ¬ PlainLine line) :
    ∃ text, (breakLines source)[above.length]? = some text ∧ text ≠ withoutReturn line := by
  obtain ⟨rest, whole⟩ := prefix_joinLines line below
  obtain ⟨text, later, breaks, other⟩ := exists_breakLines_of_broken broken rest
  refine ⟨text, ?_, other⟩
  rw [getElem?_breakLines cut plainAbove, ← whole, breaks]
  rfl

theorem cutLines_eq_of_getElem? {index : Nat} (there : (cutLines source)[index]? = some line) :
    cutLines source = (cutLines source).take index ++ line :: (cutLines source).drop (index + 1) ∧
      ((cutLines source).take index).length = index := by
  obtain ⟨inside, rfl⟩ := List.getElem?_eq_some_iff.1 there
  rw [← List.drop_eq_getElem_cons inside, List.take_append_drop]
  exact ⟨rfl, List.length_take_of_le inside.le⟩

theorem shown_iff_plain (source : List Char) (last : Nat) :
    (∀ index < last, ∀ line text, (cutLines source)[index]? = some line →
      (breakLines source)[index]? = some text → text = withoutReturn line) ↔
    ∀ line ∈ (cutLines source).take last, PlainLine line := by
  constructor
  · intro shown
    -- Only behind lines that are whole does a line keep its number, so they come in turn.
    induction last with
    | zero => simp
    | succ last ih =>
      have plainAbove := ih fun index below => shown index (by omega)
      intro line member
      rw [List.take_add_one, List.mem_append, Option.mem_toList] at member
      rcases member with earlier | here
      · exact plainAbove line earlier
      · obtain ⟨cut, length⟩ := cutLines_eq_of_getElem? here
        by_contra broken
        obtain ⟨text, there, other⟩ :=
          exists_shown_of_broken cut plainAbove broken
        rw [length] at there
        exact other (shown last (by omega) line text here there)
  · intro plain index below line text here there
    obtain ⟨cut, length⟩ := cutLines_eq_of_getElem? here
    have upTo : ∀ line ∈ (cutLines source).take (index + 1), PlainLine line :=
      fun line member => plain line (List.take_subset_take_left _ (by omega) member)
    rw [List.take_add_one, here] at upTo
    rw [← length] at there
    exact shown_of_plain cut (fun line member => upTo line (by simp [member]))
      (upTo line (by simp)) there

theorem exists_heldBy (source : List Char) (offset : Int) :
    ∃ line, HeldBy source offset line := by
  obtain ⟨above, left, right, below, cut, place, found⟩ := exists_place source offset
  refine ⟨left ++ right, by simp [found, cut], ?_, ?_⟩ <;> simp [lineStart, found, cut, place]

theorem position_lineStart {index : Nat} (there : (cutLines source)[index]? = some line) :
    position source (lineStart source (index + 1)) = (index + 1, 0) := by
  obtain ⟨cut, length⟩ := cutLines_eq_of_getElem? there
  have found := @position_of_cutLines source [] line _ _ cut
  rwa [List.append_nil, length] at found

end Lines

theorem Snippet.around_one {source : String} {index : Nat}
    (inside : index < (breakLines source.toList).length) (column : Option Int) :
    around source (index + 1 : Nat) 0 column =
      ⟨[(index + 1, String.ofList (breakLines source.toList)[index])], (index + 1 : Nat),
        column⟩ := by
  have first : ((index + 1 : Nat) - 1 - 0 : Int).toNat = index := by omega
  have last : (min ((breakLines source.toList).length : Int) ((index + 1 : Nat) + 0) -
      (index : Int)).toNat = 1 := by omega
  simp only [around, first, last]
  rw [List.drop_eq_getElem_cons inside]
  rfl

namespace SourceReport

variable (message : String) (detail : MatchDetail) (source : String) (name : Option String)
  (code : Option FaultCode)

theorem snippet?_atOffset (offset : Int) :
    (atOffset message { detail with offset } (some source) name code).snippet? 0 =
      (breakLines source.toList)[(position source.toList offset).1 - 1]?.map fun text =>
        ⟨[((position source.toList offset).1, String.ofList text)],
          (position source.toList offset).1, some (position source.toList offset).2⟩ := by
  obtain ⟨index, column, found⟩ :
      ∃ index column, position source.toList offset = (index + 1, column) := ⟨_, _, rfl⟩
  simp only [snippet?, atOffset, Option.map_some, found, Nat.add_sub_cancel]
  by_cases empty : source = ""
  · subst empty
    rfl
  · have present : nonEmpty? (some source) = some source := by simp [nonEmpty?, empty]
    simp only [present]
    split
    next inside =>
      have inside : index < (breakLines source.toList).length := by omega
      rw [Snippet.around_one inside, List.getElem?_eq_getElem inside]
      rfl
    next outside =>
      have outside : (breakLines source.toList).length ≤ index := by omega
      rw [List.getElem?_eq_none outside]
      rfl

theorem snippet_shows_line_iff (last : Nat) :
    let report (offset : Int) := atOffset message { detail with offset } (some source) name code
    let number (offset : Int) := (position source.toList offset).1
    (∀ offset, (report offset).snippet? 0 = none ↔
      (breakLines source.toList).length < number offset) ∧
    (∀ offset snippet, (report offset).snippet? 0 = some snippet →
      (report offset).line = some (number offset : Int) ∧
        ∃ text, (breakLines source.toList)[number offset - 1]? = some text ∧
          snippet.lines = [(number offset, String.ofList text)]) ∧
    ((∀ offset snippet, number offset ≤ last → (report offset).snippet? 0 = some snippet →
      ∃ line, HeldBy source.toList offset line ∧
        snippet.lines = [(number offset, String.ofList (withoutReturn line))]) ↔
      ∀ line ∈ (cutLines source.toList).take last, PlainLine line) := by
  intro report number
  have shows (offset : Int) (snippet : Snippet) (made : (report offset).snippet? 0 = some snippet) :
      ∃ text, (breakLines source.toList)[number offset - 1]? = some text ∧
        snippet.lines = [(number offset, String.ofList text)] := by
    rw [snippet?_atOffset, Option.map_eq_some_iff] at made
    obtain ⟨text, shown, rfl⟩ := made
    exact ⟨text, shown, rfl⟩
  have positive (offset : Int) : 0 < number offset := Nat.succ_pos _
  refine ⟨fun offset => ?_, fun offset snippet made => ⟨rfl, shows offset snippet made⟩, ?_⟩
  · rw [snippet?_atOffset, Option.map_eq_none_iff, List.getElem?_eq_none_iff]
    change (breakLines source.toList).length ≤ number offset - 1 ↔ _
    have := positive offset
    omega
  rw [← shown_iff_plain]
  constructor
  · intro held index below line text here there
    have start : number (lineStart source.toList (index + 1)) = index + 1 :=
      congrArg Prod.fst (position_lineStart here)
    have made := snippet?_atOffset message detail source name code
      (lineStart source.toList (index + 1))
    rw [position_lineStart here, Nat.add_sub_cancel, there] at made
    obtain ⟨line', ⟨here', -⟩, lines⟩ := held _ _ (by omega) made
    simp only [position_lineStart here, Nat.add_sub_cancel] at here'
    obtain rfl := Option.some.inj (here.symm.trans here')
    rw [start] at lines
    simpa [String.ofList_inj] using lines
  · intro shown offset snippet upTo made
    obtain ⟨text, there, lines⟩ := shows offset snippet made
    obtain ⟨line, held⟩ := exists_heldBy source.toList offset
    refine ⟨line, held, ?_⟩
    have := positive offset
    rw [lines, shown (number offset - 1) (by omega) line text held.1 there]

/-- A form feed ends a line of the excerpt only, which shows what is behind it for the next line. -/
theorem snippet_shows_line_above :
    (atOffset "Unclosed tag at 4" { offset := 4 } (some "a\x0cb\nc") none
        (some .unclosedTag)).snippet? 0 = some ⟨[(2, "b")], 2, some 0⟩ ∧
      ¬ ∃ line, HeldBy "a\x0cb\nc".toList 4 line ∧
        [(2, "b")] = [(2, String.ofList (withoutReturn line))] := by
  refine ⟨by decide, ?_⟩
  rintro ⟨line, ⟨there, -⟩, same⟩
  have held : some ['c'] = some line := by
    rw [← there]
    decide
  obtain rfl := Option.some.inj held
  revert same
  decide

end SourceReport

namespace Snippet

def lead (number : Nat) : String :=
  ">" ++ lineLabel number ++ " | "

theorem length_lineLabel (number : Nat) :
    (lineLabel number).length = max 3 (Nat.toDigits 10 number).length := by
  simp [lineLabel]
  omega

theorem length_lead (number : Nat) :
    (lead number).length = max 3 (Nat.toDigits 10 number).length + 4 := by
  have front : ">".length = 1 := by decide
  have back : " | ".length = 3 := by decide
  simp only [lead, String.length_append, length_lineLabel]
  omega

theorem toList_caretLine (column : Nat) :
    (caretLine column).toList = "     | ".toList ++ List.replicate column ' ' ++ ['^'] := by
  simp [caretLine]

theorem idxOf_caretLine (column : Nat) : (caretLine column).toList.idxOf '^' = column + 7 := by
  have free : '^' ∉ "     | ".toList ++ List.replicate column ' ' := by simp
  rw [toList_caretLine, List.idxOf_append, if_neg free]
  simp

theorem format_caret_iff (before after : List (Nat × String)) (number column : Nat)
    (content : String) :
    let snippet : Snippet := ⟨before ++ (number, content) :: after, number, some column⟩
    let shown (lines : List (Nat × String)) : List String :=
      lines.flatMap fun (number, content) => snippet.linesOf number content
    snippet.format = String.intercalate "\n"
      ("   |" :: shown before ++ (lead number ++ content) :: caretLine column ::
        (shown after ++ ["   |"])) ∧
    (caretLine column).toList.count '^' = 1 ∧
    ((caretLine column).toList.idxOf '^' = (lead number).length + column ↔ number < 1000) := by
  intro snippet shown
  refine ⟨?_, ?_, ?_⟩
  · simp [format, formatLines, snippet, shown, linesOf, lead]
  · simp [toList_caretLine, List.count_append, List.count_replicate]
  · -- The number is padded to three columns, and the front of the caret line never grows.
    rw [idxOf_caretLine, length_lead]
    have short := @Nat.length_toDigits_le_iff 10 number 3 (by decide) (by decide)
    omega

theorem format_caret_left_of_column :
    (⟨[(1000, "x")], 1000, some 0⟩ : Snippet).format = "   |\n>1000 | x\n     | ^\n   |" ∧
      lead 1000 ++ "x" = ">1000 | x" ∧
      "     | ^".toList.idxOf '^' ≠ (lead 1000).length + 0 := by
  decide

end Snippet

end Mustache
