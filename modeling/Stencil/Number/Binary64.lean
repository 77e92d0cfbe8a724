/-!
# Floating-point numbers of 64 bits

A number in the interchange format of 64 bits, held as its bits: a sign, eleven bits of exponent
and fifty-two bits of fraction. Rounding a ratio to the nearest such number, ties to the even
one, is done in whole numbers, so that it can be reasoned about.
-/

namespace Stencil

/-- A floating-point number as its bits. -/
structure Binary64 where
  bits : UInt64
deriving DecidableEq, Repr

namespace Binary64

/-- The bits of an infinite number without its sign; smaller ones are finite. -/
def infinityBits : Nat := 0x7FF0000000000000

/-- The bit that holds the sign. -/
def signBit : Nat := 0x8000000000000000

/-- The least number with all fifty-three bits: the one that a fraction of zero stands for. -/
def fractionUnit : Nat := 0x10000000000000

/-- Sets the sign of a number given without one. -/
def withSign (negative : Bool) (magnitude : Nat) : Binary64 :=
  ⟨UInt64.ofNat (if negative then magnitude + signBit else magnitude)⟩

/-- The number too large to be finite. -/
def infinity (negative : Bool) : Binary64 := withSign negative infinityBits

/-- The result of no calculation. -/
def nan (negative : Bool) : Binary64 := withSign negative 0x7FF8000000000000

/-- The bits of a number without its sign. -/
def magnitude (number : Binary64) : Nat :=
  number.bits.toNat % signBit

/-- Whether a number is below zero, or a zero with a sign. -/
def isNegative (number : Binary64) : Bool :=
  signBit ≤ number.bits.toNat

/-- Whether a number is neither infinite nor the result of no calculation. -/
def isFinite (number : Binary64) : Bool :=
  number.magnitude < infinityBits

/-- A quotient rounded to the nearest whole number, ties to the even one. -/
def roundDiv (numerator denominator : Nat) : Nat :=
  let quotient := numerator / denominator
  let remainder := numerator % denominator
  if denominator < 2 * remainder ∨ (2 * remainder = denominator ∧ quotient % 2 = 1) then
    quotient + 1
  else quotient

/-- The pair whose ratio is `numerator / denominator` divided by a power of two. -/
def scaled (numerator denominator : Nat) (exponent : Int) : Nat × Nat :=
  if exponent < 0 then (numerator <<< (-exponent).toNat, denominator)
  else (numerator, denominator <<< exponent.toNat)

/-- The exponent at which a ratio has fifty-three bits before the point, or the least exponent
that there is. -/
def exponentOf (numerator denominator : Nat) : Int :=
  let estimate : Int := Int.ofNat numerator.log2 - Int.ofNat denominator.log2
  let (top, bottom) := scaled numerator denominator estimate
  max (if top < bottom then estimate - 53 else estimate - 52) (-1074)

/-- The number nearest to a ratio. -/
def ofRatio (negative : Bool) (numerator denominator : Nat) : Binary64 :=
  if numerator = 0 then withSign negative 0
  else
    let exponent := exponentOf numerator denominator
    let (top, bottom) := scaled numerator denominator exponent
    let magnitude := (exponent + 1074).toNat * fractionUnit + roundDiv top bottom
    withSign negative (min infinityBits magnitude)

/-- The number nearest to `digits * 10 ^ exponent`. Decimals of a size far outside the range of
finite numbers are settled by their size alone. -/
def ofDecimal (negative : Bool) (digits : Nat) (exponent : Int) : Binary64 :=
  let size := Int.ofNat (Nat.toDigits 10 digits).length + exponent
  if digits = 0 ∨ size < -400 then withSign negative 0
  else if 400 < size then infinity negative
  else if exponent < 0 then ofRatio negative digits (Nat.pow 10 (-exponent).toNat)
  else ofRatio negative (digits * Nat.pow 10 exponent.toNat) 1

/-- The whole number and the power of two whose product a finite number is, sign apart. -/
def decompose (number : Binary64) : Nat × Int :=
  let fraction := number.magnitude % fractionUnit
  let biased := number.magnitude / fractionUnit
  if biased = 0 then (fraction, -1074) else (fractionUnit + fraction, Int.ofNat biased - 1075)

end Binary64

end Stencil
