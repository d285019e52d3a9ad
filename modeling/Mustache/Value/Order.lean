import Mustache.Value

set_option autoImplicit false

namespace Mustache

namespace Binary64

def quotient? : Binary64 → Option (Int × Nat)
  | notANumber => none
  -- A number without bounds is divided by zero.
  | infinite negative => some (if negative then -1 else 1, 0)
  | finite negative mantissa exponent =>
      let (n, d) := unscale 2 mantissa 1 (-exponent)
      some (if negative then -(n : Int) else n, d)

end Binary64

def isBelow (a b : Int × Nat) : Bool :=
  if a.2 = 0 ∧ b.2 = 0 then a.1 < b.1 else a.1 * b.2 < b.1 * a.2

namespace Value

def number? : Value → Option (Option (Int × Nat))
  | bool b => some (some (if b then 1 else 0, 1))
  | int n => some (some (n, 1))
  | float x => some x.quotient?
  | _ => none

mutual

def precedes? : Value → Value → Option Bool
  | str s, str t => some (decide (s < t))
  | bytes s, bytes t => some (decide (s < t))
  | tuple s, tuple t => precedesItems? s t
  | list s, list t => precedesItems? s t
  | a, b =>
      match a.number?, b.number? with
      | some (some m), some (some n) => some (isBelow m n)
      | some _, some _ => some false
      -- The two have no order.
      | _, _ => none

def precedesItems? : List Value → List Value → Option Bool
  | [], t => some !t.isEmpty
  | _ :: _, [] => some false
  -- The first items that differ decide.
  | a :: s, b :: t => if equals a b then precedesItems? s t else precedes? a b

end

def insertSorted? (value : Value) : List Value → Option (List Value)
  | [] => some [value]
  | first :: rest => do
      if ← first.precedes? value then some (first :: (← insertSorted? value rest))
      else some (value :: first :: rest)

def sort? (values : List Value) : Option (List Value) :=
  -- Equal values stay in the order given.
  values.foldrM insertSorted? []

def distinct : List Value → List Value :=
  List.foldl (fun kept value => if kept.any (equals value) then kept else kept ++ [value]) []

end Value

end Mustache
