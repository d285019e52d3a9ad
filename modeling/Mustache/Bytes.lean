set_option autoImplicit false

namespace Mustache

abbrev Bytes := List UInt8

namespace Bytes

def isUpper (b : UInt8) : Bool := 65 ≤ b && b ≤ 90

def isLower (b : UInt8) : Bool := 97 ≤ b && b ≤ 122

def isLetter (b : UInt8) : Bool := isUpper b || isLower b

def isDigit (b : UInt8) : Bool := 48 ≤ b && b ≤ 57

def isBlank (b : UInt8) : Bool := (9 ≤ b && b ≤ 13) || b == 32

def isLineEnd (b : UInt8) : Bool := b == 10 || b == 13

def toUpper (b : UInt8) : UInt8 := if isLower b then b - 32 else b

def toLower (b : UInt8) : UInt8 := if isUpper b then b + 32 else b

def swapCase (b : UInt8) : UInt8 := if isUpper b then b + 32 else toUpper b

def capitalize : Bytes → Bytes
  | [] => []
  | b :: rest => toUpper b :: rest.map toLower

def titleFrom (afterLetter : Bool) : Bytes → Bytes
  | [] => []
  | b :: rest => (if afterLetter then toLower b else toUpper b) :: titleFrom (isLetter b) rest

def isTitledFrom (afterLetter : Bool) : Bytes → Bool
  | [] => true
  | b :: rest => (!isLetter b || isLower b == afterLetter) && isTitledFrom (isLetter b) rest

def areAll (test : UInt8 → Bool) (s : Bytes) : Bool := !s.isEmpty && s.all test

def areCased (wanted unwanted : UInt8 → Bool) (s : Bytes) : Bool := s.any wanted && !s.any unwanted

def stripLeft (s : Bytes) : Bytes := s.dropWhile isBlank

def stripRight (s : Bytes) : Bytes := (s.reverse.dropWhile isBlank).reverse

def consWord (word : Bytes) (others : List Bytes) : List Bytes :=
  if word.isEmpty then others else word :: others

def wordsFrom (word : Bytes) : Bytes → List Bytes
  -- `word` holds the current word last byte first.
  | [] => consWord word.reverse []
  | b :: rest =>
      if isBlank b then consWord word.reverse (wordsFrom [] rest) else wordsFrom (b :: word) rest

def words (s : Bytes) : List Bytes := wordsFrom [] s

def linesFrom (line : Bytes) : Bytes → List Bytes
  | [] => consWord line.reverse []
  -- A carriage return with the line feed after it is one end.
  | 13 :: 10 :: rest => line.reverse :: linesFrom [] rest
  | b :: rest =>
      if isLineEnd b then line.reverse :: linesFrom [] rest else linesFrom (b :: line) rest

def lines (s : Bytes) : List Bytes := linesFrom [] s

def expandTabs (column : Nat) : Bytes → Bytes
  | [] => []
  | b :: rest =>
      -- Every eighth column is a tab stop.
      if b = 9 then List.replicate (8 - column % 8) 32 ++ expandTabs 0 rest
      else b :: expandTabs (if isLineEnd b then 0 else column + 1) rest

def justifyLeft (width : Nat) (s : Bytes) : Bytes :=
  s ++ List.replicate (width - s.length) 32

def justifyRight (width : Nat) (s : Bytes) : Bytes :=
  List.replicate (width - s.length) 32 ++ s

def center (width : Nat) (s : Bytes) : Bytes :=
  let missing := width - s.length
  -- Of an odd number the right side takes one more if the width is even, and the left side if it is
  -- odd.
  let left := missing / 2 + (if missing % 2 = 1 ∧ width % 2 = 1 then 1 else 0)
  List.replicate left 32 ++ s ++ List.replicate (missing - left) 32

def fillZeros (width : Nat) (s : Bytes) : Bytes :=
  let zeros := List.replicate (width - s.length) 48
  match s with
  | b :: rest => if b = 43 ∨ b = 45 then b :: zeros ++ rest else zeros ++ b :: rest
  | [] => zeros

def hexOf (s : Bytes) : List Char :=
  s.flatMap fun b => [Nat.digitChar (b.toNat / 16), Nat.digitChar (b.toNat % 16)]

def hexDigit? (c : Char) : Option UInt8 :=
  if '0' ≤ c ∧ c ≤ '9' then some (UInt8.ofNat (c.toNat - 48))
  else if 'a' ≤ c ∧ c ≤ 'f' then some (UInt8.ofNat (c.toNat - 87))
  else if 'A' ≤ c ∧ c ≤ 'F' then some (UInt8.ofNat (c.toNat - 55))
  else none

def ofHex? : List Char → Option Bytes
  | [] => some []
  | [c] => if c.toNat < 128 && isBlank (UInt8.ofNat c.toNat) then some [] else none
  | c :: d :: rest =>
      if c.toNat < 128 && isBlank (UInt8.ofNat c.toNat) then ofHex? (d :: rest)
      else do
        let high ← hexDigit? c
        let low ← hexDigit? d
        let bytes ← ofHex? rest
        some ((high * 16 + low) :: bytes)

def joinWith (between : Bytes) : List Bytes → Bytes
  | [] => []
  | [part] => part
  | part :: rest => part ++ between ++ joinWith between rest

end Bytes

inductive BytesFunction where
  | capitalize | center | count | decode | endswith | expandtabs | find | fromhex | hex | index
  | isalnum | isalpha | isascii | isdigit | islower | isspace | istitle | isupper | join | ljust
  | lower | lstrip | maketrans | partition | removeprefix | removesuffix | replace | rfind | rindex
  | rjust | rpartition | rsplit | rstrip | split | splitlines | startswith | strip | swapcase
  | title | translate | upper | zfill
  deriving DecidableEq, Repr

namespace BytesFunction

def named : List (String × BytesFunction) :=
  [("capitalize", capitalize), ("center", center), ("count", count), ("decode", decode),
    ("endswith", endswith), ("expandtabs", expandtabs), ("find", find), ("fromhex", fromhex),
    ("hex", hex), ("index", index), ("isalnum", isalnum), ("isalpha", isalpha),
    ("isascii", isascii), ("isdigit", isdigit), ("islower", islower), ("isspace", isspace),
    ("istitle", istitle), ("isupper", isupper), ("join", join), ("ljust", ljust),
    ("lower", lower), ("lstrip", lstrip), ("maketrans", maketrans), ("partition", partition),
    ("removeprefix", removeprefix), ("removesuffix", removesuffix), ("replace", replace),
    ("rfind", rfind), ("rindex", rindex), ("rjust", rjust), ("rpartition", rpartition),
    ("rsplit", rsplit), ("rstrip", rstrip), ("split", split), ("splitlines", splitlines),
    ("startswith", startswith), ("strip", strip), ("swapcase", swapcase), ("title", title),
    ("translate", translate), ("upper", upper), ("zfill", zfill)]

def takesOne : BytesFunction → Bool
  | center | fromhex | join | ljust | partition | removeprefix | removesuffix | rjust | rpartition
  | translate | zfill => true
  | _ => false

end BytesFunction

end Mustache
