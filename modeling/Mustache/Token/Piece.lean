import Mustache.Cursor
import Mustache.Token

set_option autoImplicit false

namespace Mustache

/-- A tag as it stands in the source, its first character included, and how long it is. -/
structure Tag where
  kind : Kind
  value : List Char
  length : Nat

def readValue (pair : Delimiters) (sigil : List Char) (inner : Cursor) : List Char × Cursor :=
  if sigil = ['='] then
    let (value, after) := inner.takeUntil (.closer ['='])
    -- What stands between the equals sign and the closing delimiter is passed over.
    (value, (after.skip (.closer ['='])).skipUntil pair.closePattern)
  else if sigil = ['{'] then
    let (value, after) := inner.takeUntil pair.closeBracePattern
    (value, (after.skip (.closer ['}'])).skipUntil pair.closePattern)
  else inner.takeUntil pair.closePattern

@[simp] theorem reach_readValue (pair : Delimiters) (sigil : List Char) (inner : Cursor) :
    (readValue pair sigil inner).2.reach = inner.reach := by
  unfold readValue
  split
  · simp
  · split <;> simp

/-- Reads the tag at the front of a text, after its opening delimiter has been found there; nothing
if no closing delimiter follows. -/
def readTag? (pair : Delimiters) (text : List Char) : Option Tag :=
  let opened := (Cursor.start text).skip pair.openPattern
  let (sigil, marked) := opened.take .sigil
  let (value, ended) := readValue pair sigil (marked.skip .blanks)
  match pair.closePattern.length? ended.rest with
  | none => none
  | some n => some ⟨(sigil.head?.map Kind.ofSigil).getD .escaped, value, ended.offset + n⟩

theorem length_le_of_readTag? {pair : Delimiters} {text : List Char} {tag : Tag}
    (found : readTag? pair text = some tag) : tag.length ≤ text.length := by
  simp only [readTag?] at found
  split at found
  next => contradiction
  next n closed =>
    obtain rfl := Option.some.inj found
    have bound := Pattern.length?_le closed
    have kept := Cursor.reach_start text
    rw [← Cursor.reach_skip _ pair.openPattern, ← Cursor.reach_take _ .sigil,
      ← Cursor.reach_skip _ .blanks, ← reach_readValue pair, Cursor.reach] at kept
    exact le_of_le_of_eq (Nat.add_le_add_left bound _) kept

inductive Piece where
  | text (start : Nat) (character : Char)
  | tag (kind : Kind) (value : String) (start stop : Nat) (inForce : Delimiters)

/-- How a scan ends: at the end of the source with the delimiters then in force, inside a tag, or
at a set-delimiters tag whose value gives these words instead of a pair. -/
inductive Ending where
  | complete (inForce : Delimiters)
  | unclosedTag
  | badDelimiters (words : List (List Char))

structure Scan where
  pieces : List Piece
  ending : Ending

def Scan.prepend (piece : Piece) (scan : Scan) : Scan :=
  { scan with pieces := piece :: scan.pieces }

def scanFrom (pair : Delimiters) (pending offset : Nat) : List Char → Scan
  | [] => ⟨[], .complete pair⟩
  | c :: rest =>
      match pending with
      -- A character of a tag that has been read.
      | more + 1 => scanFrom pair more (offset + 1) rest
      | 0 =>
          if pair.opening.isPrefixOf (c :: rest) then
            match readTag? pair (c :: rest) with
            | none => ⟨[], .unclosedTag⟩
            | some tag =>
                let piece := Piece.tag tag.kind (String.ofList tag.value) offset
                  (offset + tag.length) pair
                let next :=
                  if tag.kind = .delimiterTag then Delimiters.ofText tag.value else .ok pair
                match next with
                | .error words => ⟨[piece], .badDelimiters words⟩
                | .ok pair => (scanFrom pair (tag.length - 1) (offset + 1) rest).prepend piece
          else (scanFrom pair 0 (offset + 1) rest).prepend (.text offset c)

def scan (pair : Delimiters) (source : List Char) : Scan :=
  scanFrom pair 0 0 source

end Mustache
