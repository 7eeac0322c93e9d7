/-!
# Finite binary64 numbers

A finite binary64 number is a sign, a natural significand and a binary exponent. Numbers that arise
by `Binary64.ofRatio?` are normal: the significand has 53 binary digits unless the exponent is the
least one. All arithmetic is exact on natural numbers and rounds once, to the nearest number and in
a tie to the even significand.
-/

namespace ScriptLint

/-- The number `± significand * 2 ^ exponent`. The sign is kept apart, so zero has two forms. -/
structure Binary64 where
  negative : Bool
  significand : Nat
  exponent : Int
  deriving DecidableEq, Repr, Inhabited

namespace Binary64

/-- The least exponent, that of the numbers next to zero. -/
def leastExponent : Int := -1074

def greatestExponent : Int := 971

def zero (negative : Bool) : Binary64 := ⟨negative, 0, leastExponent⟩

/-- The greatest finite magnitude with a sign. -/
def greatest (negative : Bool) : Binary64 := ⟨negative, Nat.pow 2 53 - 1, greatestExponent⟩

/-- The natural number `2 ^ exponent`, one for a negative exponent. -/
def powerOfTwo (exponent : Int) : Nat := Nat.pow 2 exponent.toNat

/-- The exponent at which a positive ratio has a significand of 53 binary digits, but never less
than the least one. -/
def exponentOf (numerator denominator : Nat) : Int :=
  let guess : Int := (numerator.log2 : Int) - (denominator.log2 : Int)
  let reached : Bool := denominator * powerOfTwo guess ≤ numerator * powerOfTwo (-guess)
  max leastExponent (if reached then guess - 52 else guess - 53)

/-- A quotient rounded to the nearest natural number, a tie to the even one. -/
def roundQuotient (numerator denominator : Nat) : Nat :=
  let quotient := numerator / denominator
  let twice := 2 * (numerator % denominator)
  if denominator < twice || (twice == denominator && quotient % 2 == 1) then quotient + 1
  else quotient

/-- The number nearest to a signed ratio, or none if that is beyond the greatest magnitude. The
denominator is positive. -/
def ofRatio? (negative : Bool) (numerator denominator : Nat) : Option Binary64 :=
  if numerator = 0 then some (zero negative)
  else
    let exponent := exponentOf numerator denominator
    let rounded :=
      roundQuotient (numerator * powerOfTwo (-exponent)) (denominator * powerOfTwo exponent)
    let number : Binary64 :=
      if rounded = Nat.pow 2 53 then ⟨negative, Nat.pow 2 52, exponent + 1⟩
      else ⟨negative, rounded, exponent⟩
    if number.exponent ≤ greatestExponent then some number else none

/-- The number nearest to a signed natural number, capped at the greatest magnitude. -/
def ofNat (negative : Bool) (magnitude : Nat) : Binary64 :=
  (ofRatio? negative magnitude 1).getD (greatest negative)

/-- The magnitude as a ratio of natural numbers. -/
def ratio (number : Binary64) : Nat × Nat :=
  (number.significand * powerOfTwo number.exponent, powerOfTwo (-number.exponent))

def isZero (number : Binary64) : Bool := number.significand == 0

def isPositive (number : Binary64) : Bool := !number.negative && !number.isZero

/-- The greatest natural number that is not above the magnitude. -/
def floorMagnitude (number : Binary64) : Nat := number.ratio.1 / number.ratio.2

def isAtLeastOne (number : Binary64) : Bool := !number.negative && 1 ≤ number.floorMagnitude

/-- Whether the magnitude is less than `2 ^ (-52)`, the distance from one to the next number. -/
def isNegligible (number : Binary64) : Bool :=
  number.ratio.1 * Nat.pow 2 52 < number.ratio.2

def multiply? (left right : Binary64) : Option Binary64 :=
  ofRatio? (left.negative != right.negative)
    (left.ratio.1 * right.ratio.1) (left.ratio.2 * right.ratio.2)

/-- The rounded quotient by a number other than zero. -/
def divide? (left right : Binary64) : Option Binary64 :=
  ofRatio? (left.negative != right.negative)
    (left.ratio.1 * right.ratio.2) (left.ratio.2 * right.ratio.1)

def withSign (negative : Bool) (number : Binary64) : Binary64 := { number with negative }

end Binary64

end ScriptLint
