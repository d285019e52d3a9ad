import Mustache.Text.Cut

/-!
Patterns for names: a star stands for any text, a question mark for any character, and brackets for
one character of a set or, after an exclamation mark, outside it. All else stands for itself.
-/

set_option autoImplicit false

namespace Mustache

inductive NamePiece where
  | exactly (c : Char)
  | anyChar
  | anyText
  | oneOf (outside : Bool) (ranges : List (Char × Char))
  deriving DecidableEq, Repr

namespace NamePiece

def splitSet? (s : List Char) : Option (List Char × List Char) :=
  let (mark, s) := match s with
    | '!' :: rest => (['!'], rest)
    | _ => ([], s)
  -- A closing bracket that comes first in a set belongs to it.
  let (first, s) := match s with
    | ']' :: rest => ([']'], rest)
    | _ => ([], s)
  match s.dropWhile (· ≠ ']') with
  | [] => none
  | _ :: rest => some (mark ++ first ++ s.takeWhile (· ≠ ']'), rest)

def cutRanges (chunk : List Char) (least : Nat) : List Char → List (List Char)
  | [] => [chunk.reverse]
  | c :: rest =>
      -- A hyphen makes a range after at least `least` characters, and the next one after two more.
      if least = 0 ∧ c = '-' then chunk.reverse :: cutRanges [] 2 rest
      else cutRanges (c :: chunk) (least - 1) rest

def chunks (content : List Char) : List (List Char) :=
  let cut := cutRanges [] (if content.head? = some '!' then 2 else 1) content
  match cut.reverse with
  -- A hyphen at the end makes no range.
  | [] :: last :: before => ((last ++ ['-']) :: before).reverse
  | _ => cut

def dropEmptyRanges : List (List Char) → List (List Char)
  | [] => []
  | chunk :: rest =>
      match dropEmptyRanges rest with
      | [] => [chunk]
      | next :: others =>
          match chunk.getLast?, next.head? with
          | some low, some high =>
              if high < low then (chunk.dropLast ++ next.tail) :: others
              else chunk :: next :: others
          | _, _ => chunk :: next :: others

def rangesFrom (low : Option Char) : List (List Char) → List (Char × Char)
  | [] => (low.map fun c => (c, c)).toList
  | chunk :: rest =>
      let (opening, chunk) := match low, chunk with
        | some low, high :: chunk => ([(low, high)], chunk)
        | _, chunk => ([], chunk)
      if rest.isEmpty then opening ++ chunk.map fun c => (c, c)
      else match chunk.getLast? with
        -- Two chunks that meet make a range of their nearest characters.
        | some low => opening ++ chunk.dropLast.map (fun c => (c, c)) ++ rangesFrom (some low) rest
        | none => opening ++ ('-', '-') :: rangesFrom none rest

def ofSet (content : List Char) : NamePiece :=
  match dropEmptyRanges (chunks content) with
  | ('!' :: chunk) :: rest => oneOf true (rangesFrom none (chunk :: rest))
  | chunks => oneOf false (rangesFrom none chunks)

def readAll : Nat → List Char → List NamePiece
  | 0, _ => []
  | _ + 1, [] => []
  | rounds + 1, '*' :: rest => anyText :: readAll rounds rest
  | rounds + 1, '?' :: rest => anyChar :: readAll rounds rest
  | rounds + 1, '[' :: rest =>
      match splitSet? rest with
      | some (content, rest) => ofSet content :: readAll rounds rest
      -- A bracket that is not closed stands for itself.
      | none => exactly '[' :: readAll rounds rest
  | rounds + 1, c :: rest => exactly c :: readAll rounds rest

def ofText (text : List Char) : List NamePiece :=
  readAll text.length text

def accepts (c : Char) : NamePiece → Bool
  | exactly d => c = d
  | anyChar | anyText => true
  | oneOf outside ranges => (ranges.any fun range => range.1 ≤ c && c ≤ range.2) != outside

def someEnd (test : List Char → Bool) : List Char → Bool
  | [] => test []
  | c :: rest => test (c :: rest) || someEnd test rest

def standFor : List NamePiece → List Char → Bool
  | [], name => name.isEmpty
  | anyText :: pieces, name => someEnd (standFor pieces) name
  | _ :: _, [] => false
  | piece :: pieces, c :: rest => piece.accepts c && standFor pieces rest

end NamePiece

end Mustache
