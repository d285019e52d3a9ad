import Mustache.Number.Binary64

set_option autoImplicit false

namespace Mustache

structure ShortDecimal where
  digits : Nat
  point : Int
  deriving DecidableEq, Repr

namespace Binary64

def decade (n d : Nat) : Int :=
  -- Zero in the first decade below one, negative for smaller quotients.
  let guess : Int := ((Nat.toDigits 10 n).length : Int) - (Nat.toDigits 10 d).length
  let (n₀, d₀) := unscale 10 n d guess
  if d₀ ≤ n₀ then guess + 1 else guess

def roundingBounds (mantissa : Nat) (exponent : Int) : Nat × Nat :=
  -- In quarters of the last binary place; the gap below a power of two is half as wide.
  let below := if mantissa = leastFullMantissa ∧ exponent > leastExponent then 1 else 2
  (4 * mantissa - below, 4 * mantissa + 2)

def shortDecimalAt? (mantissa : Nat) (exponent : Int) (place : Int) (count : Nat) : Option Nat :=
  let grid := place - count
  -- One unit of this scale is a quarter of the last binary place.
  let (unitNum, unitDen) := unscale 2 1 1 (2 - exponent)
  let (unitNum, unitDen) := unscale 10 unitNum unitDen grid
  let (low, high) := roundingBounds mantissa exponent
  let inside (candidate : Nat) : Bool :=
    let scaled := candidate * unitDen
    if mantissa % 2 = 0 then low * unitNum ≤ scaled && scaled ≤ high * unitNum
    else low * unitNum < scaled && scaled < high * unitNum
  let value := 4 * mantissa * unitNum
  let down := value / unitDen
  let up := down + 1
  match inside down, inside up with
  -- Both read back: the nearer one, and of two equally near ones the even one.
  | true, true => some (roundDiv value unitDen)
  | true, false => some down
  | false, true => some up
  | false, false => none

def shortDecimalFrom (mantissa : Nat) (exponent : Int) (place : Int) : Nat → Nat → ShortDecimal
  | 0, count => ⟨(shortDecimalAt? mantissa exponent place count).getD 0, place - count⟩
  | more + 1, count =>
      match shortDecimalAt? mantissa exponent place count with
      | some digits => ⟨digits, place - count⟩
      | none => shortDecimalFrom mantissa exponent place more (count + 1)

def shortDecimal (mantissa : Nat) (exponent : Int) : ShortDecimal :=
  let (n, d) := unscale 2 mantissa 1 (-exponent)
  shortDecimalFrom mantissa exponent (decade n d) 16 1

def dropTrailingZeros (digits : List Char) : List Char :=
  (digits.reverse.dropWhile (· == '0')).reverse

def decimalText (digits : List Char) (place : Int) : List Char :=
  -- Positional notation for magnitudes from `10 ^ -4` to below `10 ^ 16`.
  if -4 < place ∧ place ≤ 16 then
    if place ≤ 0 then '0' :: '.' :: (List.replicate (-place).toNat '0' ++ digits)
    else
      let whole := digits.take place.toNat
      let fraction := digits.drop place.toNat
      whole ++ List.replicate (place.toNat - digits.length) '0' ++
        '.' :: (if fraction.isEmpty then ['0'] else fraction)
  else
    let power := place - 1
    let magnitude := Nat.toDigits 10 power.natAbs
    digits.take 1 ++ (if digits.length ≤ 1 then [] else '.' :: digits.drop 1) ++
      'e' :: (if power < 0 then '-' else '+') ::
        (List.replicate (2 - magnitude.length) '0' ++ magnitude)

def text : Binary64 → String
  | notANumber => "nan"
  | infinite negative => if negative then "-inf" else "inf"
  | finite negative mantissa exponent =>
      let body :=
        if mantissa = 0 then ['0', '.', '0']
        else
          let short := shortDecimal mantissa exponent
          let digits := Nat.toDigits 10 short.digits
          decimalText (dropTrailingZeros digits) (short.point + digits.length)
      String.ofList (if negative then '-' :: body else body)

end Binary64

end Mustache
