import ScriptLint.Number.Binary64
import ScriptLint.Number.Digits

/-!
# Reading decimals

A decimal is a sign, digits around an optional point, at least one of them, and an optional
exponent. It stands for the binary64 number nearest to it. A decimal beyond the greatest number
stands for none.
-/

namespace ScriptLint.Binary64

/-- The parts of a decimal: its digits without the point, how many of them follow the point, and the
exponent. -/
structure DecimalParts where
  negative : Bool
  digits : List Char
  decimals : Nat
  exponent : Int
  deriving DecidableEq, Repr

/-- A sign, if there is one, and what follows it. -/
def splitSign : List Char → Bool × List Char
  | '-' :: rest => (true, rest)
  | '+' :: rest => (false, rest)
  | letters => (false, letters)

/-- The exponent behind the digits of a decimal; none is written as nothing. -/
def exponentPart? : List Char → Option Int
  | [] => some 0
  | letter :: rest =>
      if letter = 'e' ∨ letter = 'E' then
        let (negative, digits) := splitSign rest
        (Number.ofDigits? 10 digits).map fun magnitude =>
          if negative then -(magnitude : Int) else magnitude
      else none

/-- The parts of a text that is a decimal. -/
def decimalParts? (letters : List Char) : Option DecimalParts :=
  let (negative, letters) := splitSign letters
  let whole := letters.takeWhile Char.isDigit
  let behind := letters.drop whole.length
  let (decimals, behind) :=
    match behind with
    | '.' :: rest =>
        let decimals := rest.takeWhile Char.isDigit
        (decimals, rest.drop decimals.length)
    | _ => ([], behind)
  if whole.isEmpty && decimals.isEmpty then none
  else
    (exponentPart? behind).map fun exponent =>
      { negative, digits := whole ++ decimals, decimals := decimals.length, exponent }

/-- The number nearest to a decimal. A decimal whose first digit stands so high or so low that only
its place matters is decided by that place. -/
def DecimalParts.value? (parts : DecimalParts) : Option Binary64 :=
  let digits := parts.digits.dropWhile (· == '0')
  let scale : Int := parts.exponent - parts.decimals
  let place : Int := digits.length + scale
  if digits.isEmpty || place < -400 then some (.zero parts.negative)
  else if 400 < place then none
  else
    (Number.ofDigits? 10 digits).bind fun significand =>
      ofRatio? parts.negative (significand * Nat.pow 10 scale.toNat) (Nat.pow 10 (-scale).toNat)

/-- The number nearest to a text that is a decimal. -/
def ofDecimal? (letters : List Char) : Option Binary64 :=
  (decimalParts? letters).bind DecimalParts.value?

end ScriptLint.Binary64
