import ScriptLint.Json.Basic
import ScriptLint.Number.Decimal

/-!
# What plain scalars stand for

A plain scalar without a tag is null, a truth value or a number if it is written like one, and else
it is text. Whole numbers may be written in base sixteen, eight or two. Decimal digits that begin
with an unneeded zero are text. A whole number that does not fit into 64 bits cannot be represented,
but one that does not even fit into 128 bits is read as a binary64 number.
-/

namespace ScriptLint.Yaml

/-- What a scalar stands for, or that it cannot be represented. -/
abbrev Represented := Option Json

def isNull (letters : List Char) : Bool :=
  ["null", "Null", "NULL", "~"].contains (String.ofList letters)

def truth? (letters : List Char) : Option Bool :=
  let text := String.ofList letters
  if ["true", "True", "TRUE"].contains text then some true
  else if ["false", "False", "FALSE"].contains text then some false
  else none

def hasLeadingZero (digits : List Char) : Bool :=
  digits.head? == some '0' && 1 < digits.length && digits.all Char.isDigit

/-- The natural number that a scalar without a sign is written like. -/
def magnitude? (letters : List Char) : Option Nat :=
  match letters with
  | '0' :: 'x' :: digits => Number.ofDigits? 16 digits
  | '0' :: 'o' :: digits => Number.ofDigits? 8 digits
  | '0' :: 'b' :: digits => Number.ofDigits? 2 digits
  | _ => if hasLeadingZero letters then none else Number.ofDigits? 10 letters

/-- The whole number of at most a number of bits, besides a sign that takes one more, that a scalar
is written like: whether it is negative, and its magnitude. -/
def integer? (letters : List Char) : Option (Bool × Nat) :=
  let (negative, letters) := Binary64.splitSign letters
  let greatest := if negative then Nat.pow 2 127 else Nat.pow 2 128 - 1
  ((magnitude? letters).filter (· ≤ greatest)).map fun magnitude => (negative, magnitude)

def representInteger (negative : Bool) (magnitude : Nat) : Represented :=
  if negative ∧ 0 < magnitude then
    if magnitude ≤ Nat.pow 2 63 then some (.number (.negative magnitude)) else none
  else if magnitude < Nat.pow 2 64 then some (.nat magnitude)
  else none

/-- Whether a scalar is written like one of the values of binary64 that are no finite number. There
is no such JSON number, so null stands for them. -/
def isNonFinite (letters : List Char) : Bool :=
  [".inf", ".Inf", ".INF", "+.inf", "+.Inf", "+.INF", "-.inf", "-.Inf", "-.INF", ".nan", ".NaN",
    ".NAN"].contains (String.ofList letters)

def real? (letters : List Char) : Option Json :=
  if isNonFinite letters then some .null
  else (Binary64.ofDecimal? letters).map fun value => .number (.real value)

def representPlain (letters : List Char) : Represented :=
  if letters.isEmpty || isNull letters then some .null
  else
    match truth? letters, integer? letters with
    | some value, _ => some (.bool value)
    | none, some (negative, magnitude) => representInteger negative magnitude
    | none, none =>
        if hasLeadingZero (Binary64.splitSign letters).2 then some (.string (String.ofList letters))
        else (real? letters).or (some (.string (String.ofList letters)))

end ScriptLint.Yaml
