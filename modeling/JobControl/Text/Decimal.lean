/-!
# Decimal numbers

* `Decimal.natural?` : one or more ASCII digits, however many;
* `Decimal.count?` : the same within a range of numbers, up or down from zero one digit at a time;
* `Decimal.unsigned?` : digits after an optional plus sign, up to a greatest value;
* `Decimal.signed?` : digits after an optional sign, within a range.

Counting is given up as soon as a number is out of range, so no number is ever reduced to another.
-/

set_option autoImplicit false

namespace JobControl.Decimal

def digit (c : Char) : Nat := c.toNat - '0'.toNat

/-- The value of digits, the most significant first. -/
def value (cs : List Char) : Nat := cs.foldl (fun n c => 10 * n + digit c) 0

/-- The number that one or more ASCII digits spell. -/
def natural? (cs : List Char) : Option Nat :=
  if cs ≠ [] ∧ cs.all Char.isDigit then some (value cs) else none

section Range
variable (least most : Int)

/-- `n`, if it is in `least..most`. -/
def check (n : Int) : Option Int := if least ≤ n ∧ n ≤ most then some n else none

/-- Append a digit to `n`. Below zero digits count down, since the least number may have no counterpart
above zero. -/
def push? (negative : Bool) (n : Int) (c : Char) : Option Int :=
  match check least most (10 * n) with
  | none => none
  | some tens =>
    if c.isDigit then check least most (if negative then tens - digit c else tens + digit c)
    else none

/-- The number in `least..most` that one or more ASCII digits spell. -/
def count? (negative : Bool) : List Char → Option Int
  | [] => none
  | c :: cs => (c :: cs).foldlM (push? least most negative) 0

/-- The number in `least..most` that `cs` spells, with or without a sign. -/
def signed? : List Char → Option Int
  | '+' :: rest => count? least most false rest
  | '-' :: rest => count? least most true rest
  | cs => count? least most false cs

end Range

/-- The number that `cs` spells, with or without a plus sign, if it is at most `most`. -/
def unsigned? (most : Nat) (cs : List Char) : Option Nat :=
  let digits := match cs with
    | '+' :: rest => rest
    | _ => cs
  (count? 0 most false digits).map Int.toNat

end JobControl.Decimal
