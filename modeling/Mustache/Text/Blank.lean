/-!
White space. Every rule of the library that speaks of blanks (skipping inside tags, standalone
lines, splitting a delimiter pair, trimming) speaks of these characters.
-/

set_option autoImplicit false

namespace Mustache

def isBlank (c : Char) : Bool :=
  let n := c.toNat
  (9 ≤ n && n ≤ 13) || (28 ≤ n && n ≤ 32) || n == 0x85 || n == 0xA0 || n == 0x1680 ||
    (0x2000 ≤ n && n ≤ 0x200A) || n == 0x2028 || n == 0x2029 || n == 0x202F || n == 0x205F ||
    n == 0x3000

@[simp] theorem isBlank_lineFeed : isBlank '\n' = true := by decide

def trimBlank (s : List Char) : List Char :=
  ((s.dropWhile isBlank).reverse.dropWhile isBlank).reverse

def splitBlank (s : List Char) : List (List Char) :=
  go [] s
where
  go (word : List Char) : List Char → List (List Char)
    | [] => [word.reverse]
    | c :: rest =>
        if isBlank c then
          match rest with
          -- A run at an end leaves an empty word there.
          | [] => [word.reverse, []]
          | d :: _ => if isBlank d then go word rest else word.reverse :: go [] rest
        else go (c :: word) rest

end Mustache
