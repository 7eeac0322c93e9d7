import ScriptLint.Number.Binary64

/-!
# Shortest decimals

`shortest` finds the decimal with the fewest digits that still rounds to a given number, and of
those with equally many digits the one nearest to it. Two layouts write it down: `scientificText`
turns to an exponent for large and small magnitudes and always has a decimal, `plainText` never has
an exponent.
-/

namespace ScriptLint.Binary64

structure Decimal where
  digits : Nat
  scale : Int
  deriving DecidableEq, Repr

/-- The positive reals that round to a number, in quarters of the unit `2 ^ exponent`: `low` and
`high` are the ends, and both belong to the interval when `closed` holds. -/
structure Neighbourhood where
  low : Nat
  high : Nat
  closed : Bool

/-- The interval that rounds to a positive number. Below the least significand of an exponent the
numbers lie twice as close. -/
def neighbourhood (number : Binary64) : Neighbourhood where
  low :=
    if number.significand = Nat.pow 2 52 ∧ number.exponent ≠ leastExponent then
      4 * number.significand - 1
    else 4 * number.significand - 2
  high := 4 * number.significand + 2
  closed := number.significand % 2 == 0

/-- Whether a decimal multiple lies in the interval. The multiple is `digits * unit`, the quarters
are `quarter` in the same measure. -/
def Neighbourhood.holds (interval : Neighbourhood) (quarter unit digits : Nat) : Bool :=
  let value := digits * unit
  if interval.closed then interval.low * quarter ≤ value && value ≤ interval.high * quarter
  else interval.low * quarter < value && value < interval.high * quarter

/-- The multiple of `10 ^ scale` that rounds to the number and is nearest to it, if there is one;
of two equally near ones the even one. -/
def onGrid? (number : Binary64) (scale : Int) : Option Nat :=
  let quarterExponent := number.exponent - 2
  let quarter := powerOfTwo quarterExponent * Nat.pow 10 (-scale).toNat
  let unit := powerOfTwo (-quarterExponent) * Nat.pow 10 scale.toNat
  let value := 4 * number.significand * quarter
  let below := value / unit
  let interval := number.neighbourhood
  match interval.holds quarter unit below, interval.holds quarter unit (below + 1) with
  | true, true =>
      let toBelow := value - below * unit
      let toAbove := (below + 1) * unit - value
      if toBelow < toAbove || (toBelow == toAbove && below % 2 == 0) then some below
      else some (below + 1)
  | true, false => some below
  | false, true => some (below + 1)
  | false, false => none

/-- The first grid from the given scale downwards that has a multiple rounding to the number. -/
def firstGrid (number : Binary64) : Nat → Int → Decimal
  | 0, scale => ⟨0, scale⟩
  | attempts + 1, scale =>
      match number.onGrid? scale with
      | some digits => ⟨digits, scale⟩
      | none => firstGrid number attempts (scale - 1)

/-- Number of decimal digits of a natural number, one for zero. -/
def digitCount (value : Nat) : Nat := (Nat.toDigits 10 value).length

/-- A scale at or above the magnitude of the number. -/
def topScale (number : Binary64) : Int :=
  let (numerator, denominator) := number.ratio
  (digitCount numerator : Int) - digitCount denominator + 1

/-- The decimal with the fewest digits that rounds to a positive number. Seventeen digits always
suffice, and the top scale is at most two above the first digit. -/
def shortest (number : Binary64) : Decimal := firstGrid number 21 number.topScale

/-- The given number of zeros. -/
def zeros (count : Nat) : String := String.ofList (List.replicate count '0')

def signText (number : Binary64) : String := if number.negative then "-" else ""

/-- Digits with the decimal point after the given number of them. -/
def pointAfter (digits : List Char) (count : Nat) : String :=
  String.ofList (digits.take count) ++ "." ++ String.ofList (digits.drop count)

/-- A positive number without an exponent, with a point only if there are decimals. -/
def plainMagnitude (number : Binary64) : String :=
  let decimal := number.shortest
  let digits := Nat.toDigits 10 decimal.digits
  let whole : Int := digits.length + decimal.scale
  if 0 ≤ decimal.scale then String.ofList digits ++ zeros decimal.scale.toNat
  else if 0 < whole then pointAfter digits whole.toNat
  else "0." ++ zeros (-whole).toNat ++ String.ofList digits

/-- The number without an exponent: `-0`, `0.5`, `80`. -/
def plainText (number : Binary64) : String :=
  number.signText ++ if number.isZero then "0" else number.plainMagnitude

/-- The number with at least one decimal, and with an exponent when the first digit stands sixteen
or more places before the point or more than five behind it: `80.0`, `0.00001`, `1e+16`, `1e-7`. -/
def scientificText (number : Binary64) : String :=
  if number.isZero then number.signText ++ "0.0"
  else
    let decimal := number.shortest
    let digits := Nat.toDigits 10 decimal.digits
    let leading : Int := digits.length + decimal.scale - 1
    let magnitude :=
      if -5 ≤ leading ∧ leading < 16 then
        if 0 ≤ decimal.scale then number.plainMagnitude ++ ".0" else number.plainMagnitude
      else
        let mantissa :=
          if digits.length = 1 then String.ofList digits else pointAfter digits 1
        mantissa ++ "e" ++ (if leading < 0 then "-" else "+") ++ toString leading.natAbs
    number.signText ++ magnitude

end ScriptLint.Binary64
