import Stencil.Number.Binary64

/-!
# Scaling by powers of ten

A quick way from a decimal to a floating-point number: the leading digits, as many as fit into 64
bits, are rounded to a number, which is then multiplied or divided by a rounded power of ten. The
result can differ from the nearest number by a unit in the last place, as each step rounds.
-/

namespace Stencil.Binary64

/-- The number nearest to a product of whole numbers and a power of two. -/
def ofBinary (numerator denominator : Nat) (exponent : Int) : Binary64 :=
  let (top, bottom) := scaled numerator denominator (-exponent)
  ofRatio false top bottom

/-- The product of two finite numbers, signs apart. -/
def mul (first second : Binary64) : Binary64 :=
  let (left, leftExponent) := first.decompose
  let (right, rightExponent) := second.decompose
  ofBinary (left * right) 1 (leftExponent + rightExponent)

/-- The quotient of two finite numbers, signs apart. -/
def div (first second : Binary64) : Binary64 :=
  let (left, leftExponent) := first.decompose
  let (right, rightExponent) := second.decompose
  ofBinary left right (leftExponent - rightExponent)

/-- The greatest power of ten that is used. -/
def maxPower : Nat := 308

/-- A power of ten. -/
def powerOfTen (exponent : Nat) : Binary64 :=
  ofDecimal false 1 exponent

/-- A number divided by a power of ten, in steps if the power is too great. -/
def divPower (number : Binary64) (exponent : Nat) : Binary64 :=
  if exponent ≤ maxPower ∨ number.magnitude = 0 then number.div (powerOfTen (min exponent maxPower))
  else divPower (number.div (powerOfTen maxPower)) (exponent - maxPower)
termination_by exponent
decreasing_by simp [maxPower] at *; omega

/-- A whole number scaled by a power of ten, unless the result is too large. -/
def scale? (digits : Nat) (exponent : Int) : Option Binary64 :=
  let number := ofRatio false digits 1
  if exponent < 0 then some (number.divPower (-exponent).toNat)
  else if digits = 0 then some number
  else if maxPower < exponent.toNat then none
  else
    let product := number.mul (powerOfTen exponent.toNat)
    if product.isFinite then some product else none

end Stencil.Binary64
