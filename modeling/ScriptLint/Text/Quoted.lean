import ScriptLint.Text.Class
import ScriptLint.Text.Table.Concealed

/-!
# Quoted text

Two ways to put a text between quotes. `quoted` is for messages: every character without a glyph of
its own is written by its number in braces. `jsonQuoted` is the string of the JSON format: only the
quote, the backslash and the ASCII control characters are escaped.
-/

namespace ScriptLint.Text

/-- The hexadecimal digits of a number, small letters. -/
def hexDigits (value : Nat) : List Char := Nat.toDigits 16 value

/-- A character as it stands in a quoted message. -/
def quotedLetter (letter : Char) : List Char :=
  if letter == '"' || letter == '\\' then ['\\', letter]
  else if letter == '\n' then ['\\', 'n']
  else if letter == '\r' then ['\\', 'r']
  else if letter == '\t' then ['\\', 't']
  else if letter.toNat == 0 then ['\\', '0']
  else if covers Table.concealed letter.toNat then
    ['\\', 'u', '\x7b'] ++ hexDigits letter.toNat ++ ['\x7d']
  else [letter]

def quoted (text : String) : String :=
  String.ofList ('"' :: text.toList.flatMap quotedLetter ++ ['"'])

/-- A character as it stands in a JSON string. -/
def jsonLetter (letter : Char) : List Char :=
  if letter == '"' || letter == '\\' then ['\\', letter]
  else if letter == '\n' then ['\\', 'n']
  else if letter == '\r' then ['\\', 'r']
  else if letter == '\t' then ['\\', 't']
  else if letter.toNat == 8 then ['\\', 'b']
  else if letter.toNat == 12 then ['\\', 'f']
  else if letter.toNat < 0x10 then ['\\', 'u', '0', '0', '0'] ++ hexDigits letter.toNat
  else if letter.toNat < 0x20 then ['\\', 'u', '0', '0'] ++ hexDigits letter.toNat
  else [letter]

def jsonQuoted (text : String) : String :=
  String.ofList ('"' :: text.toList.flatMap jsonLetter ++ ['"'])

end ScriptLint.Text
