/-!
# Numbers from digits

Digits are the decimal ones and then the letters in either case. A run of digits in a base is a
natural number; a run with a character that is no digit of the base is none, and neither is an empty
run.
-/

namespace ScriptLint.Number

/-- The value of a digit below a base of at most sixteen. -/
def digitValue? (base : Nat) (digit : Char) : Option Nat :=
  let value? : Option Nat :=
    if digit.isDigit then some (digit.toNat - '0'.toNat)
    else if 'a' ≤ digit ∧ digit ≤ 'f' then some (digit.toNat - 'a'.toNat + 10)
    else if 'A' ≤ digit ∧ digit ≤ 'F' then some (digit.toNat - 'A'.toNat + 10)
    else none
  value?.filter (· < base)

/-- The natural number that follows a value when digits are written behind it. -/
def appendDigits? (base value : Nat) (digits : List Char) : Option Nat :=
  digits.foldlM (fun value digit => (digitValue? base digit).map (value * base + ·)) value

def ofDigits? (base : Nat) (digits : List Char) : Option Nat :=
  if digits.isEmpty then none else appendDigits? base 0 digits

end ScriptLint.Number
