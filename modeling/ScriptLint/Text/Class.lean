import ScriptLint.Text.Table.Alphabetic
import ScriptLint.Text.Table.Numeric
import ScriptLint.Text.Table.Decimal
import ScriptLint.Text.Table.Mark
import ScriptLint.Text.Table.Recent
import ScriptLint.Text.Table.Uppercase
import ScriptLint.Text.Table.Lowercase

/-!
# Character classes

Each class is a decidable test on one character. An ASCII character is decided by comparison alone;
only the other characters are looked up in the tables of Unicode properties. Two classes of letters
are kept apart, because source text is read in two ways: `isWord` is the class behind a word edge,
and `isIdentifier` is the class of characters that the scanner joins into one word.

The tables hold the properties of version 17 of Unicode. The class behind a word edge is that of
version 16, so it leaves out what version 17 added.
-/

namespace ScriptLint.Text

def covers (table : Array (Nat × Nat)) (code : Nat) : Bool :=
  table.any fun range => range.1 ≤ code && code ≤ range.2

def coversStepped (table : Array (Nat × Nat × Nat)) (code : Nat) : Bool :=
  table.any fun run => run.1 ≤ code && code ≤ run.2.1 && (code - run.1) % run.2.2 == 0

def isAscii (letter : Char) : Bool := letter.toNat < 0x80

/-- White space: the Unicode property `White_Space`. -/
def isSpace (letter : Char) : Bool :=
  let code := letter.toNat
  (9 ≤ code && code ≤ 13) || code == 0x20 || code == 0x85 || code == 0xA0 || code == 0x1680 ||
    (0x2000 ≤ code && code ≤ 0x200A) || code == 0x2028 || code == 0x2029 || code == 0x202F ||
    code == 0x205F || code == 0x3000

def isAlphabetic (letter : Char) : Bool :=
  if isAscii letter then letter.isAlpha else covers Table.alphabetic letter.toNat

/-- A numeric character: a decimal digit, a letter-like number or another number such as `²`. -/
def isNumeric (letter : Char) : Bool :=
  if isAscii letter then letter.isDigit else covers Table.numeric letter.toNat

/-- Punctuation that joins the words on its two sides. -/
def isConnector (letter : Char) : Bool :=
  let code := letter.toNat
  letter == '_' || code == 0x203F || code == 0x2040 || code == 0x2054 ||
    code == 0xFE33 || code == 0xFE34 || (0xFE4D ≤ code && code ≤ 0xFE4F) || code == 0xFF3F

/-- The two invisible characters that ask for or forbid a ligature. -/
def isJoiner (letter : Char) : Bool := letter.toNat == 0x200C || letter.toNat == 0x200D

/-- A word character in the sense of a word edge: alphabetic, a mark, a decimal digit, a connector
or a joiner, and not among the recent characters. The dollar sign is not one. -/
def isWord (letter : Char) : Bool :=
  if isAscii letter then letter.isAlphanum || letter == '_'
  else
    !covers Table.recent letter.toNat &&
      (covers Table.alphabetic letter.toNat || covers Table.mark letter.toNat ||
        covers Table.decimal letter.toNat || isConnector letter || isJoiner letter)

/-- A character of an identifier as patterns read it: a word character or the dollar sign. -/
def isName (letter : Char) : Bool := isWord letter || letter == '$'

/-- A character of an identifier as the scanner reads it: alphabetic, numeric, `_` or `$`. -/
def isIdentifier (letter : Char) : Bool :=
  isAlphabetic letter || isNumeric letter || letter == '_' || letter == '$'

def isUppercase (letter : Char) : Bool :=
  if isAscii letter then letter.isUpper else coversStepped Table.uppercase letter.toNat

def isLowercase (letter : Char) : Bool :=
  if isAscii letter then letter.isLower else coversStepped Table.lowercase letter.toNat

end ScriptLint.Text
