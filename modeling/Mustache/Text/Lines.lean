import Mustache.Text.Cut

/-!
Lines of a text. Two readings of a line are in use: positions and partials cut at line feeds only,
source snippets break at every line boundary character.
-/

set_option autoImplicit false

namespace Mustache

def cutLines (text : List Char) : List (List Char) :=
  cutAt '\n' text

def joinLines (lines : List (List Char)) : List Char :=
  joinWith '\n' lines

theorem prefix_joinLines (line : List Char) (later : List (List Char)) :
    line <+: joinLines (line :: later) := by
  cases later with
  | nil => exact List.prefix_rfl
  | cons next later => exact List.prefix_append _ _

theorem cutLines_append_lineFeed {text : List Char} (oneLine : '\n' ∉ text) (rest : List Char) :
    cutLines (text ++ '\n' :: rest) = text :: cutLines rest :=
  cutAt_append_mark oneLine rest

theorem cutLines_of_oneLine {text : List Char} (oneLine : '\n' ∉ text) :
    cutLines text = [text] :=
  cutAt_of_notMem oneLine

def isLineBreak (c : Char) : Bool :=
  let n := c.toNat
  (10 ≤ n && n ≤ 13) || (28 ≤ n && n ≤ 30) || n == 0x85 || n == 0x2028 || n == 0x2029

def breakLinesFrom (line : List Char) : List Char → List (List Char)
  -- A break at the end of the text opens no further line.
  | [] => if line.isEmpty then [] else [line.reverse]
  | '\r' :: '\n' :: rest => line.reverse :: breakLinesFrom [] rest
  | c :: rest =>
      if isLineBreak c then line.reverse :: breakLinesFrom [] rest
      else breakLinesFrom (c :: line) rest

def breakLines (s : List Char) : List (List Char) :=
  breakLinesFrom [] s

def unifyLineEnds : List Char → List Char
  | [] => []
  | '\r' :: '\n' :: rest => '\n' :: unifyLineEnds rest
  | c :: rest => (if c = '\r' then '\n' else c) :: unifyLineEnds rest

end Mustache
