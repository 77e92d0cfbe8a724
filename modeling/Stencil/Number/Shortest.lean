import Stencil.Number.Binary64

/-!
# Shortest decimals

The decimal with the fewest digits that rounds to a given floating-point number and, among
those, the nearest to it; of two that are equally near, the one with an even last digit. For a
given number of digits only the two neighbours of the number on that decimal grid can do, so the
grids are tried in turn, coarsest first.
-/

namespace Stencil.Binary64

/-- A ratio of whole numbers, not brought to lowest terms. -/
structure Ratio where
  numerator : Nat
  denominator : Nat

/-- The ratio `count * 2 ^ exponent`. -/
def Ratio.ofBinary (count : Nat) (exponent : Int) : Ratio :=
  if exponent < 0 then ⟨count, 1 <<< (-exponent).toNat⟩ else ⟨count <<< exponent.toNat, 1⟩

/-- The ratio `count * 10 ^ exponent`. -/
def Ratio.ofDecimal (count : Nat) (exponent : Int) : Ratio :=
  if exponent < 0 then ⟨count, Nat.pow 10 (-exponent).toNat⟩
  else ⟨count * Nat.pow 10 exponent.toNat, 1⟩

/-- The whole part of `first / second`. -/
def Ratio.floorDiv (first second : Ratio) : Nat :=
  (first.numerator * second.denominator) / (first.denominator * second.numerator)

/-- Whether one ratio is below another. -/
def Ratio.below (first second : Ratio) : Bool :=
  first.numerator * second.denominator < second.numerator * first.denominator

/-- The distance between two ratios, in units of the product of their denominators. -/
def Ratio.distance (first second : Ratio) : Nat :=
  let left := first.numerator * second.denominator
  let right := second.numerator * first.denominator
  (left - right) + (right - left)

/-- The reals that round to a number: those between two bounds, which belong to it if the
number's whole part is even. -/
structure RoundingInterval where
  value : Ratio
  lower : Ratio
  upper : Ratio
  closed : Bool

/-- The interval of a positive number. Below a power of two the neighbours are closer. -/
def roundingInterval (number : Binary64) : RoundingInterval :=
  let (whole, exponent) := number.decompose
  let step := if whole = fractionUnit ∧ exponent ≠ -1074 then 1 else 2
  { value := .ofBinary (4 * whole) (exponent - 2)
    lower := .ofBinary (4 * whole - step) (exponent - 2)
    upper := .ofBinary (4 * whole + 2) (exponent - 2)
    closed := whole % 2 = 0 }

/-- Whether a ratio rounds to the number of an interval. -/
def RoundingInterval.contains (interval : RoundingInterval) (ratio : Ratio) : Bool :=
  if interval.closed then !ratio.below interval.lower && !interval.upper.below ratio
  else interval.lower.below ratio && ratio.below interval.upper

/-- The number of digits before the point of a positive ratio; for a ratio below a tenth, minus
the number of zeros after the point. -/
def pointOf (ratio : Ratio) : Int :=
  let whole := ratio.numerator / ratio.denominator
  if whole ≠ 0 then (Nat.toDigits 10 whole).length
  else
    let inverse := (ratio.denominator + ratio.numerator - 1) / ratio.numerator
    1 - Int.ofNat (Nat.toDigits 10 (inverse - 1)).length

/-- The nearer of a number's two neighbours on a decimal grid, if it rounds to the number. Both
neighbours have one denominator, so that their distances to the number can be compared. -/
def onGrid? (interval : RoundingInterval) (exponent : Int) : Option Nat :=
  let floor := interval.value.floorDiv (.ofDecimal 1 exponent)
  let low := Ratio.ofDecimal floor exponent
  let high := Ratio.ofDecimal (floor + 1) exponent
  let below := low.distance interval.value
  let above := high.distance interval.value
  let lowNearer := below < above ∨ (below = above ∧ floor % 2 = 0)
  match interval.contains low, interval.contains high with
  | true, true => some (if lowNearer then floor else floor + 1)
  | true, false => some floor
  | false, true => some (floor + 1)
  | false, false => none

/-- Digits without the zeros at their end. -/
def dropEndZeros (digits : List Char) : List Char :=
  (digits.reverse.dropWhile (· = '0')).reverse

/-- The shortest decimal of a positive number, as digits and the number of digits before the
point. Seventeen digits always do. -/
def shortestDigits (number : Binary64) : List Char × Int :=
  let interval := roundingInterval number
  let point := pointOf interval.value
  let found := (List.range 17).findSome? fun count =>
    let exponent := point - Int.ofNat count - 1
    (onGrid? interval exponent).map fun digits => (digits, exponent)
  let (digits, exponent) := found.getD (0, 0)
  let spelled := Nat.toDigits 10 digits
  (dropEndZeros spelled, Int.ofNat spelled.length + exponent)

end Stencil.Binary64
