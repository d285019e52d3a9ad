import Mustache.Proofs.Truncation
import Mustache.Token.Stream

set_option autoImplicit false

namespace Mustache

/-- Where a scan stands: the delimiters in force, the offset, and the text still to be read. -/
structure Reader where
  pair : Delimiters
  offset : Nat
  rest : List Char

def Tag.piece (tag : Tag) (offset : Nat) (pair : Delimiters) : Piece :=
  .tag tag.kind (String.ofList tag.value) offset (offset + tag.length) pair

def Tag.pairAfter (tag : Tag) (pair : Delimiters) : Except (List (List Char)) Delimiters :=
  if tag.kind = .delimiterTag then Delimiters.ofText tag.value else .ok pair

namespace Piece

def start : Piece → Nat
  | text start _ => start
  | tag _ _ start _ _ => start

def stop : Piece → Nat
  | text start _ => start + 1
  | tag _ _ _ stop _ => stop

def moved (distance : Nat) : Piece → Piece
  | text start c => text (start + distance) c
  | tag kind value start stop inForce =>
      tag kind value (start + distance) (stop + distance) inForce

def Proper : Piece → Prop
  | text _ _ => True
  | tag kind _ _ _ _ => kind ≠ .text

end Piece

inductive Reads : Reader → Piece → Reader → Prop
  | text {pair : Delimiters} {offset : Nat} {c : Char} {rest : List Char}
      (plain : pair.opening.isPrefixOf (c :: rest) = false) :
      Reads ⟨pair, offset, c :: rest⟩ (.text offset c) ⟨pair, offset + 1, rest⟩
  | tag {pair next : Delimiters} {offset : Nat} {source : List Char} {found : Tag}
      (opened : pair.opening.isPrefixOf source = true)
      (read : readTag? pair source = some found) (after : found.pairAfter pair = .ok next) :
      Reads ⟨pair, offset, source⟩ (found.piece offset pair)
        ⟨next, offset + found.length, source.drop found.length⟩

inductive ReadsAll : Reader → List Piece → Reader → Prop
  | nil (reader : Reader) : ReadsAll reader [] reader
  | cons {first middle last : Reader} {piece : Piece} {pieces : List Piece} :
      Reads first piece middle → ReadsAll middle pieces last →
      ReadsAll first (piece :: pieces) last

def Reader.scan (reader : Reader) : Scan :=
  scanFrom reader.pair 0 reader.offset reader.rest

/-- What a reader that takes no further piece has before it, the pieces that the scan still lists
for it, and how the scan ends there. -/
inductive Reader.Stops : Reader → List Piece → Ending → Prop
  | atEnd {pair : Delimiters} {offset : Nat} : Stops ⟨pair, offset, []⟩ [] (.complete pair)
  | inTag {reader : Reader} (opened : reader.pair.opening.isPrefixOf reader.rest = true)
      (unread : readTag? reader.pair reader.rest = none) : Stops reader [] .unclosedTag
  | atDelimiters {reader : Reader} {tag : Tag} {words : List (List Char)}
      (opened : reader.pair.opening.isPrefixOf reader.rest = true)
      (read : readTag? reader.pair reader.rest = some tag)
      (bad : tag.pairAfter reader.pair = .error words) :
      Stops reader [tag.piece reader.offset reader.pair] (.badDelimiters words)

def Scan.prependAll (pieces : List Piece) (scan : Scan) : Scan :=
  { scan with pieces := pieces ++ scan.pieces }

section Steps

variable {first last : Reader} {piece : Piece} {pieces : List Piece}

theorem scanFrom_pending (pair : Delimiters) (pending offset : Nat) (text : List Char) :
    scanFrom pair pending offset text = scanFrom pair 0 (offset + pending) (text.drop pending) := by
  -- The pending characters are the rest of a tag that has been read.
  induction text generalizing pending offset with
  | nil => simp [scanFrom]
  | cons c rest ih =>
    cases pending with
    | zero => rfl
    | succ more =>
      rw [scanFrom, ih, List.drop_succ_cons]
      congr 1
      omega

theorem length_pos_of_readTag? {pair : Delimiters} {text : List Char} {tag : Tag}
    (found : readTag? pair text = some tag) (opened : pair.opening.isPrefixOf text = true) :
    0 < tag.length :=
  Nat.lt_of_le_of_lt (Nat.zero_le _) (opening_length_lt_of_readTag? found opened)

theorem scanFrom_of_readTag? {pair : Delimiters} {text : List Char} {tag : Tag} (offset : Nat)
    (opened : pair.opening.isPrefixOf text = true) (found : readTag? pair text = some tag) :
    scanFrom pair 0 offset text =
      match tag.pairAfter pair with
      | .error words => ⟨[tag.piece offset pair], .badDelimiters words⟩
      | .ok next => (scanFrom next 0 (offset + tag.length) (text.drop tag.length)).prepend
          (tag.piece offset pair) := by
  have positive := length_pos_of_readTag? found opened
  cases text with
  | nil => simp [pair.opening_ne_nil] at opened
  | cons c rest =>
    rw [scanFrom]
    simp only [opened, if_true, found]
    change (match tag.pairAfter pair with
      | .error words => (⟨[tag.piece offset pair], .badDelimiters words⟩ : Scan)
      | .ok pair' => (scanFrom pair' (tag.length - 1) (offset + 1) rest).prepend
          (tag.piece offset pair)) = _
    cases tag.pairAfter pair with
    | error words => rfl
    | ok next =>
      obtain ⟨more, size⟩ := Nat.exists_eq_succ_of_ne_zero (Nat.ne_of_gt positive)
      simp only
      rw [scanFrom_pending next (tag.length - 1), size, Nat.succ_sub_one, Nat.succ_eq_add_one,
        List.drop_succ_cons, Nat.add_assoc, Nat.add_comm 1 more]

theorem Reads.scan (step : Reads first piece last) :
    first.scan = last.scan.prepend piece := by
  cases step with
  | text plain => simp [Reader.scan, scanFrom, plain]
  | tag opened read after =>
    simp only [Reader.scan]
    rw [scanFrom_of_readTag? _ opened read, after]

theorem ReadsAll.scan (run : ReadsAll first pieces last) :
    first.scan = last.scan.prependAll pieces := by
  induction run with
  | nil reader => rfl
  | cons step run ih =>
    rw [step.scan, ih]
    rfl

theorem Reads.offsets (step : Reads first piece last) :
    piece.start = first.offset ∧ piece.stop = last.offset ∧ first.offset < last.offset ∧
      last.offset ≤ first.offset + first.rest.length ∧
      last.rest = first.rest.drop (last.offset - first.offset) := by
  cases step with
  | text plain => simp [Piece.start, Piece.stop]
  | tag opened read after =>
    have positive := length_pos_of_readTag? read opened
    have bound := length_le_of_readTag? read
    simp only [Tag.piece, Piece.start, Piece.stop, Nat.add_sub_cancel_left, and_true, true_and]
    omega

theorem ReadsAll.offsets (run : ReadsAll first pieces last) :
    first.offset ≤ last.offset ∧ last.offset ≤ first.offset + first.rest.length ∧
      last.rest = first.rest.drop (last.offset - first.offset) := by
  induction run with
  | nil reader => simp
  | cons step run ih =>
    obtain ⟨-, -, forward, bound, rest⟩ := step.offsets
    obtain ⟨onward, reach, after⟩ := ih
    rw [rest, List.length_drop] at reach
    refine ⟨by omega, by omega, ?_⟩
    rw [after, rest, List.drop_drop]
    congr 1
    omega

theorem Reads.shorter (step : Reads first piece last) : last.rest.length < first.rest.length := by
  obtain ⟨-, -, forward, bound, rest⟩ := step.offsets
  rw [rest, List.length_drop]
  omega

theorem Reader.exists_stops (reader : Reader) :
    ∃ pieces last left, ReadsAll reader pieces last ∧ last.Stops left reader.scan.ending ∧
      reader.scan.pieces = pieces ++ left := by
  -- A tag takes several characters at once, so the induction is on the length of the text.
  induction size : reader.rest.length using Nat.strongRecOn generalizing reader with
  | ind n ih =>
    subst size
    have onward {piece : Piece} {next : Reader} (step : Reads reader piece next) :
        ∃ pieces last left, ReadsAll reader pieces last ∧ last.Stops left reader.scan.ending ∧
          reader.scan.pieces = pieces ++ left := by
      obtain ⟨pieces, last, left, run, stops, whole⟩ := ih _ step.shorter next rfl
      rw [step.scan]
      exact ⟨piece :: pieces, last, left, .cons step run, stops, congrArg (piece :: ·) whole⟩
    obtain ⟨pair, offset, text⟩ := reader
    cases text with
    | nil => exact ⟨[], _, [], .nil _, .atEnd, rfl⟩
    | cons c rest =>
      cases opened : pair.opening.isPrefixOf (c :: rest) with
      | false => exact onward (.text opened)
      | true =>
        cases read : readTag? pair (c :: rest) with
        | none =>
          have scanned : (Reader.mk pair offset (c :: rest)).scan = ⟨[], .unclosedTag⟩ := by
            simp [Reader.scan, scanFrom, opened, read]
          rw [scanned]
          exact ⟨[], _, [], .nil _, .inTag opened read, rfl⟩
        | some tag =>
          cases after : tag.pairAfter pair with
          | ok next => exact onward (.tag opened read after)
          | error words =>
            have scanned : (Reader.mk pair offset (c :: rest)).scan =
                ⟨[tag.piece offset pair], .badDelimiters words⟩ := by
              rw [Reader.scan, scanFrom_of_readTag? offset opened read, after]
            rw [scanned]
            exact ⟨[], _, _, .nil _, .atDelimiters opened read after, rfl⟩

theorem readsAll_of_complete {pair inForce : Delimiters} {offset : Nat} {text : List Char}
    (scanned : scanFrom pair 0 offset text = ⟨pieces, .complete inForce⟩) :
    ReadsAll ⟨pair, offset, text⟩ pieces ⟨inForce, offset + text.length, []⟩ := by
  obtain ⟨taken, last, left, run, stops, whole⟩ := Reader.exists_stops ⟨pair, offset, text⟩
  rw [Reader.scan, scanned] at stops whole
  cases stops with
  | @atEnd _ reach =>
    obtain ⟨onward, bound, rest⟩ := run.offsets
    have ended := List.drop_eq_nil_iff.1 rest.symm
    dsimp only at onward bound ended
    obtain rfl : reach = offset + text.length := by omega
    obtain rfl : pieces = taken := by simpa using whole
    exact run

theorem readsAll_append {before after : List Piece} :
    ReadsAll first (before ++ after) last ↔
      ∃ middle, ReadsAll first before middle ∧ ReadsAll middle after last := by
  constructor
  · intro run
    induction before generalizing first with
    | nil => exact ⟨first, .nil first, run⟩
    | cons piece before ih =>
      cases run with
      | cons step run =>
        obtain ⟨middle, left, right⟩ := ih run
        exact ⟨middle, .cons step left, right⟩
  · rintro ⟨middle, left, right⟩
    induction left with
    | nil reader => exact right
    | cons step _ ih => exact .cons step (ih right)

theorem readsAll_nil : ReadsAll first [] last ↔ first = last := by
  constructor
  · intro run
    cases run
    rfl
  · rintro rfl
    exact .nil first

theorem readsAll_cons {piece : Piece} :
    ReadsAll first (piece :: pieces) last ↔
      ∃ middle, Reads first piece middle ∧ ReadsAll middle pieces last := by
  constructor
  · intro run
    cases run with
    | cons step run => exact ⟨_, step, run⟩
  · rintro ⟨middle, step, run⟩
    exact .cons step run

theorem isPrefixOf_take {literal text : List Char} {n : Nat} (fits : literal.length ≤ n) :
    literal.isPrefixOf (text.take n) = literal.isPrefixOf text := by
  rw [Bool.eq_iff_iff, List.isPrefixOf_iff_prefix, List.isPrefixOf_iff_prefix, List.prefix_take_iff]
  exact and_iff_left fits

theorem Reads.cut (step : Reads first piece last) (more : Nat) :
    Reads { first with rest := first.rest.take (last.offset - first.offset + more) } piece
      { last with rest := last.rest.take more } := by
  cases step with
  | @text pair offset c rest plain =>
    simp only [Nat.add_sub_cancel_left, Nat.add_comm 1 more, List.take_succ_cons]
    refine .text ?_
    rw [← Bool.not_eq_true, List.isPrefixOf_iff_prefix] at plain ⊢
    intro inside
    exact plain (inside.trans ((List.prefix_cons_inj c).2 (List.take_prefix more rest)))
  | @tag pair next offset source found opened read after =>
    have longer := opening_length_lt_of_readTag? read opened
    have rest : (source.drop found.length).take more =
        (source.take (found.length + more)).drop found.length := by
      rw [List.drop_take, Nat.add_sub_cancel_left]
    simp only [Nat.add_sub_cancel_left, rest]
    -- The tag is read from what it takes, however the text goes on.
    refine .tag ?_ (readTag?_take read (Nat.le_add_right _ _)) after
    rw [isPrefixOf_take (by omega), opened]

theorem ReadsAll.cut (run : ReadsAll first pieces last) (more : Nat) :
    ReadsAll { first with rest := first.rest.take (last.offset - first.offset + more) } pieces
      { last with rest := last.rest.take more } := by
  induction run with
  | nil reader => simpa using .nil _
  | @cons first middle last piece pieces step run ih =>
    obtain ⟨-, -, forward, -⟩ := step.offsets
    obtain ⟨onward, -⟩ := run.offsets
    have cut := step.cut (last.offset - middle.offset + more)
    rw [← Nat.add_assoc, show middle.offset - first.offset + (last.offset - middle.offset) =
      last.offset - first.offset by omega] at cut
    exact .cons cut ih

theorem ReadsAll.alone (run : ReadsAll first pieces last) :
    ReadsAll { first with rest := first.rest.take (last.offset - first.offset) } pieces
      { last with rest := [] } := by
  simpa using run.cut 0

theorem proper_of_readTag? {pair : Delimiters} {text : List Char} {tag : Tag}
    (found : readTag? pair text = some tag) : tag.kind ≠ .text := by
  rw [readTag?_eq_map, Option.map_eq_some_iff] at found
  obtain ⟨n, -, rfl⟩ := found
  cases (tagSigil pair text).1.head? with
  | none => simp
  | some c =>
    simp only [Option.map_some, Option.getD_some]
    unfold Kind.ofSigil
    split <;> simp

theorem Reads.proper {first last : Reader} {piece : Piece} (step : Reads first piece last) :
    piece.Proper := by
  cases step with
  | text plain => trivial
  | tag opened read after => exact proper_of_readTag? read

theorem ReadsAll.proper {first last : Reader} {pieces : List Piece}
    (run : ReadsAll first pieces last) : ∀ piece ∈ pieces, piece.Proper := by
  induction run with
  | nil reader => simp
  | cons step run ih =>
    intro piece member
    rcases List.mem_cons.1 member with rfl | later
    · exact step.proper
    · exact ih piece later

end Steps

section Streams

theorem tokenize_eq_ok_iff {source : String} {pair : Delimiters} {name : Option String}
    {tokens : List Token} :
    tokenize source pair name = .ok tokens ↔
      (∃ inForce, (scan pair source.toList).ending = .complete inForce) ∧
        openAfterAll [] (scan pair source.toList).pieces = .ok [] ∧
        tokens = settle {} (scan pair source.toList).pieces := by
  simp only [tokenize]
  split
  next mismatch failed => simp [failed]
  next opened matched =>
    split
    next ended => simp [ended]
    next words ended => simp [ended]
    next inForce ended =>
      rw [matched]
      split
      next closed =>
        rw [List.reverse_eq_nil_iff] at closed
        simp [ended, closed, eq_comm]
      -- A section that is left open is a fault.
      next outermost inner left =>
        have : opened ≠ [] := by
          rintro rfl
          simp at left
        simp [this]

theorem readsAll_scan {pair inForce : Delimiters} {text : List Char}
    (ended : (scan pair text).ending = .complete inForce) :
    ReadsAll ⟨pair, 0, text⟩ (scan pair text).pieces ⟨inForce, text.length, []⟩ := by
  have scanned : scanFrom pair 0 0 text = ⟨(scan pair text).pieces, .complete inForce⟩ := by
    rw [← ended]
    rfl
  simpa using readsAll_of_complete scanned

theorem scan_of_reach {pair : Delimiters} {first second : List Char} {pieces : List Piece}
    {middle : Reader} (run : ReadsAll ⟨pair, 0, first ++ second⟩ pieces middle)
    (reach : middle.offset = first.length) : scan pair first = ⟨pieces, .complete middle.pair⟩ := by
  have alone := run.alone
  simp only [Nat.sub_zero, reach, List.take_left] at alone
  simpa [Reader.scan, scan, scanFrom, Scan.prependAll] using alone.scan

end Streams

section Moves

def Scan.moved (distance : Nat) (scan : Scan) : Scan :=
  { scan with pieces := scan.pieces.map (Piece.moved distance) }

theorem Scan.moved_prepend (distance : Nat) (piece : Piece) (scan : Scan) :
    (scan.prepend piece).moved distance = (scan.moved distance).prepend (piece.moved distance) :=
  rfl

theorem scanFrom_add (pair : Delimiters) (pending offset distance : Nat) (text : List Char) :
    scanFrom pair pending (offset + distance) text =
      (scanFrom pair pending offset text).moved distance := by
  induction text generalizing pair pending offset with
  | nil => rfl
  | cons c rest ih =>
    cases pending with
    | succ more =>
      rw [scanFrom, scanFrom, Nat.add_right_comm, ih]
    | zero =>
      rw [scanFrom, scanFrom, Nat.add_right_comm]
      by_cases opened : pair.opening.isPrefixOf (c :: rest) = true
      · simp only [opened, if_true]
        cases found : readTag? pair (c :: rest) with
        | none => rfl
        | some tag =>
          simp only
          split
          next => simp [Scan.moved, Piece.moved, Nat.add_right_comm]
          next next after =>
            rw [ih, Scan.moved_prepend]
            simp [Piece.moved, Nat.add_right_comm]
      · simp only [opened, if_false, Bool.false_eq_true]
        rw [ih, Scan.moved_prepend]
        rfl

end Moves

end Mustache
