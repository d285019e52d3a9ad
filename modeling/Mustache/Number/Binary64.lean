set_option autoImplicit false

namespace Mustache

/-- A finite number is `mantissa * 2 ^ exponent` with a mantissa below `2 ^ 53` and an exponent of
at least `-1074`; the mantissa reaches `2 ^ 52` unless the exponent is the least one. -/
inductive Binary64 where
  | notANumber
  | infinite (negative : Bool)
  | finite (negative : Bool) (mantissa : Nat) (exponent : Int)
  deriving DecidableEq, Repr

def roundDiv (n d : Nat) : Nat :=
  let q := n / d
  let r := n % d
  if 2 * r < d ∨ (2 * r = d ∧ q % 2 = 0) then q else q + 1

namespace Binary64

def leastFullMantissa : Nat := Nat.pow 2 52

def leastExponent : Int := -1074

def greatestExponent : Int := 971

def unscale (base : Nat) (n d : Nat) (power : Int) : Nat × Nat :=
  if 0 ≤ power then (n, d * base.pow power.toNat) else (n * base.pow (-power).toNat, d)

def ofQuotient (negative : Bool) (n d : Nat) : Binary64 :=
  if n = 0 then finite negative 0 leastExponent
  else
    let low := max leastExponent ((n.log2 : Int) - d.log2 - 53)
    let (n₀, d₀) := unscale 2 n d low
    let exponent := if 2 * leastFullMantissa ≤ n₀ / d₀ then low + 1 else low
    let (n₁, d₁) := unscale 2 n d exponent
    let mantissa := roundDiv n₁ d₁
    let (mantissa, exponent) :=
      if mantissa = 2 * leastFullMantissa then (leastFullMantissa, exponent + 1)
      else (mantissa, exponent)
    if exponent > greatestExponent then infinite negative else finite negative mantissa exponent

def ofDecimal (negative : Bool) (digits : Nat) (power : Int) : Binary64 :=
  let size : Int := (Nat.toDigits 10 digits).length + power
  -- Beyond the range of the type the answer does not depend on the digits.
  if digits = 0 ∨ size < -400 then finite negative 0 leastExponent
  else if size > 400 then infinite negative
  else
    let (n, d) := unscale 10 digits 1 (-power)
    ofQuotient negative n d

def isZero : Binary64 → Bool
  | finite _ mantissa _ => mantissa == 0
  | _ => false

def toInt? : Binary64 → Option Int
  | finite negative mantissa exponent =>
      let (n, d) := unscale 2 mantissa 1 (-exponent)
      if n % d = 0 then some (if negative then -(n / d : Nat) else (n / d : Nat)) else none
  | _ => none

end Binary64

end Mustache
