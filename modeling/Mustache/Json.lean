import Mustache.Text.Digit
import Mustache.Value

/-!
Reading of JSON data as values. Whole numbers are exact, numbers with a fraction or an exponent are
floating-point, and of members with one name the last one counts.
-/

set_option autoImplicit false

namespace Mustache.Json

def isSpace (c : Char) : Bool :=
  c = ' ' || c = '\t' || c = '\n' || c = '\r'

def skipSpace (s : List Char) : List Char :=
  s.dropWhile isSpace

def hexValue? (c : Char) : Option Nat :=
  if '0' ≤ c ∧ c ≤ '9' then some (c.toNat - '0'.toNat)
  else if 'a' ≤ c ∧ c ≤ 'f' then some (c.toNat - 'a'.toNat + 10)
  else if 'A' ≤ c ∧ c ≤ 'F' then some (c.toNat - 'A'.toNat + 10)
  else none

def readUnit? : List Char → Option (Nat × List Char)
  | a :: b :: c :: d :: rest => do
      let a ← hexValue? a
      let b ← hexValue? b
      let c ← hexValue? c
      let d ← hexValue? d
      some (((a * 16 + b) * 16 + c) * 16 + d, rest)
  | _ => none

def isHighHalf (unit : Nat) : Bool := 0xD800 ≤ unit && unit < 0xDC00

def isLowHalf (unit : Nat) : Bool := 0xDC00 ≤ unit && unit < 0xE000

/-- The character of a unit. A half alone has none, and what is read of a text with one is not given
out. -/
def charOfUnit (unit : Nat) : Char :=
  if isHighHalf unit || isLowHalf unit then '\uFFFD' else Char.ofNat unit

def readEscapedChar? (s : List Char) : Option (Char × List Char) := do
  let (unit, rest) ← readUnit? s
  if isHighHalf unit then
    match rest with
    | '\\' :: 'u' :: after =>
        match readUnit? after with
        | some (low, after) =>
            -- Two halves are one character.
            if isLowHalf low then
              some (Char.ofNat (0x10000 + (unit - 0xD800) * 0x400 + (low - 0xDC00)), after)
            else some (charOfUnit unit, rest)
        | none => some (charOfUnit unit, rest)
    | _ => some (charOfUnit unit, rest)
  else some (charOfUnit unit, rest)

/-- Whether an escape in a text is half of a character and the other half is not beside it. The flag
says whether the last escape before the text waits for its second half. -/
def hasLoneHalf (waiting : Bool) : List Char → Bool
  | [] => waiting
  | '\\' :: 'u' :: a :: b :: c :: d :: rest =>
      match readUnit? [a, b, c, d] with
      | none => true
      | some (unit, _) =>
          if waiting then !isLowHalf unit || hasLoneHalf false rest
          else isLowHalf unit || hasLoneHalf (isHighHalf unit) rest
  | '\\' :: _ :: rest => waiting || hasLoneHalf false rest
  | _ :: rest => waiting || hasLoneHalf false rest

def simpleEscape? : Char → Option Char
  | '"' => some '"'
  | '\\' => some '\\'
  | '/' => some '/'
  | 'b' => some '\x08'
  | 'f' => some '\x0c'
  | 'n' => some '\n'
  | 'r' => some '\r'
  | 't' => some '\t'
  | _ => none

def readString? : Nat → List Char → List Char → Option (String × List Char)
  | 0, _, _ => none
  | _ + 1, _, [] => none
  | _ + 1, done, '"' :: rest => some (String.ofList done.reverse, rest)
  | rounds + 1, done, '\\' :: 'u' :: rest => do
      let (c, rest) ← readEscapedChar? rest
      readString? rounds (c :: done) rest
  | rounds + 1, done, '\\' :: e :: rest => do
      let c ← simpleEscape? e
      readString? rounds (c :: done) rest
  | rounds + 1, done, c :: rest =>
      -- Control characters have to be escaped.
      if c.toNat < 0x20 ∨ c = '\\' then none else readString? rounds (c :: done) rest

structure Numeral where
  negative : Bool := false
  whole : List Char := []
  fraction : Option (List Char) := none
  exponent : Option Int := none

def isDigit (c : Char) : Bool := '0' ≤ c && c ≤ '9'

def natOfDigits (digits : List Char) : Nat :=
  digits.foldl (fun n c => 10 * n + (c.toNat - '0'.toNat)) 0

def readFraction (s : List Char) : Option (List Char) × List Char :=
  match s with
  | '.' :: rest =>
      let digits := rest.takeWhile isDigit
      if digits.isEmpty then (none, s) else (some digits, rest.dropWhile isDigit)
  | _ => (none, s)

def readExponent (s : List Char) : Option Int × List Char :=
  match s with
  | e :: rest =>
      if e = 'e' ∨ e = 'E' then
        let (negative, unsigned) := match rest with
          | '-' :: after => (true, after)
          | '+' :: after => (false, after)
          | _ => (false, rest)
        let digits := unsigned.takeWhile isDigit
        if digits.isEmpty then (none, s)
        else
          let size : Int := natOfDigits digits
          (some (if negative then -size else size), unsigned.dropWhile isDigit)
      else (none, s)
  | [] => (none, s)

def readNumeral? (negative : Bool) (s : List Char) : Option (Numeral × List Char) :=
  let whole := match s with
    -- A leading zero stands alone before the point.
    | '0' :: _ => ['0']
    | _ => s.takeWhile isDigit
  if whole.isEmpty then none
  else
    let (fraction, rest) := readFraction (s.drop whole.length)
    let (exponent, rest) := readExponent rest
    some (⟨negative, whole, fraction, exponent⟩, rest)

/-- Why a text is not read: it is not written as data, it has a whole number of too many digits, or
half of a character alone, which no text here can hold. -/
inductive ReadFault where
  | notJson
  | tooManyDigits
  | loneHalf
  deriving DecidableEq, Repr

abbrev Reading := Except ReadFault

def orNotJson {α : Type} : Option α → Reading α
  | some a => .ok a
  | none => .error .notJson

def Numeral.toValue (numeral : Numeral) : Reading Value :=
  match numeral.fraction, numeral.exponent with
  | none, none =>
      if digitLimit < numeral.whole.length then .error .tooManyDigits
      else
        let n : Int := natOfDigits numeral.whole
        .ok (.int (if numeral.negative then -n else n))
  | fraction, exponent =>
      let decimals := fraction.getD []
      .ok (.float (Binary64.ofDecimal numeral.negative (natOfDigits (numeral.whole ++ decimals))
        (exponent.getD 0 - decimals.length)))

def dropText? (word : String) (s : List Char) : Option (List Char) :=
  if word.toList.isPrefixOf s then some (s.drop word.length) else none

def words : List (String × Value) :=
  [("null", .null), ("true", .bool true), ("false", .bool false), ("NaN", .float .notANumber),
    ("Infinity", .float (.infinite false)), ("-Infinity", .float (.infinite true))]

def readNumber (negative : Bool) (s : List Char) : Reading (Value × List Char) := do
  let (numeral, rest) ← orNotJson (readNumeral? negative s)
  return (← numeral.toValue, rest)

def readAtom (s : List Char) : Reading (Value × List Char) :=
  match words.findSome? fun (word, value) => (dropText? word s).map fun rest => (value, rest) with
  | some found => .ok found
  | none =>
      match s with
      | '-' :: rest => readNumber true rest
      | _ => readNumber false s

def readText (rounds : Nat) (s : List Char) : Reading (String × List Char) :=
  orNotJson (readString? rounds [] s)

mutual

/-- The value at the front of a text. Every two rounds take a character, so that as many are left as
a text in it needs. -/
def readValue : Nat → List Char → Reading (Value × List Char)
  | 0, _ => .error .notJson
  | rounds + 1, s =>
      match s with
      | '"' :: rest => do
          let (text, rest) ← readText rounds rest
          return (.str text, rest)
      | '[' :: rest =>
          match skipSpace rest with
          | ']' :: rest => .ok (.list [], rest)
          | rest => do
              let (items, rest) ← readItems rounds rest
              return (.list items, rest)
      | '\x7b' :: rest =>
          match skipSpace rest with
          | '\x7d' :: rest => .ok (.map [], rest)
          | rest => do
              let (members, rest) ← readMembers rounds rest
              return (Value.mapOf members, rest)
      | _ => readAtom s

def readItems : Nat → List Char → Reading (List Value × List Char)
  | 0, _ => .error .notJson
  | rounds + 1, s => do
      let (item, rest) ← readValue rounds s
      match skipSpace rest with
      | ',' :: rest => do
          let (items, rest) ← readItems rounds (skipSpace rest)
          return (item :: items, rest)
      | ']' :: rest => return ([item], rest)
      | _ => .error .notJson

def readMembers : Nat → List Char → Reading (List (Value × Value) × List Char)
  | 0, _ => .error .notJson
  | rounds + 1, s =>
      match s with
      | '"' :: rest => do
          let (name, rest) ← readText rounds rest
          match skipSpace rest with
          | ':' :: rest => do
              let (value, rest) ← readValue rounds (skipSpace rest)
              match skipSpace rest with
              | ',' :: rest => do
                  let (members, rest) ← readMembers rounds (skipSpace rest)
                  return ((.str name, value) :: members, rest)
              | '\x7d' :: rest => return ([(.str name, value)], rest)
              | _ => .error .notJson
          | _ => .error .notJson
      | _ => .error .notJson

end

def read (text : String) : Reading Value := do
  let s := text.toList
  let (value, rest) ← readValue (2 * s.length + 2) (skipSpace s)
  if !(skipSpace rest).isEmpty then .error .notJson
  else if hasLoneHalf false s then .error .loneHalf
  else return value

end Mustache.Json
