import ScriptLint.Number.Digits
import ScriptLint.Yaml.Cursor

/-!
# Tags

A tag names the type of a node. It is written as a handle, which a document maps to the beginning of
a tag, and a suffix, or in full between angle brackets. A suffix may hold escaped octets. Tags are
compared octet by octet, so they are lists of octets here. An escaped octet of zero ends what is
written: it and the octets behind it are read and forgotten.
-/

namespace ScriptLint.Yaml

/-- An octet of a tag. Unescaped characters are ASCII. -/
abbrev Octet := Nat

def octets (letters : List Char) : List Octet := letters.map Char.toNat

/-- A tag as it is written. A tag in full has no handle. -/
structure TagShorthand where
  handle : List Char
  suffix : List Octet
  deriving DecidableEq, Repr

/-- A character that may stand in a tag besides letters and digits. -/
def isTagPunctuation (letter : Char) : Bool := ";/?:@&=+$.!~*'()%-_".toList.contains letter

/-- A character that may stand in a suffix. In a full tag commas and brackets may as well. -/
def isTagLetter (isFull : Bool) (letter : Char) : Bool :=
  letter.isAlphanum || isTagPunctuation letter ||
    (isFull && (letter == ',' || letter == '[' || letter == ']'))

/-- The octet that two hexadecimal digits behind a percent sign stand for. -/
def escapedOctet? : List Char → Option (Octet × List Char)
  | '%' :: high :: low :: rest => (Number.ofDigits? 16 [high, low]).map fun octet => (octet, rest)
  | _ => none

/-- How many octets follow the first octet of an encoded character. -/
def continuation? (octet : Octet) : Option Nat :=
  if octet < 0x80 then some 0
  else if 0xC0 ≤ octet ∧ octet < 0xE0 then some 1
  else if 0xE0 ≤ octet ∧ octet < 0xF0 then some 2
  else if 0xF0 ≤ octet ∧ octet < 0xF8 then some 3
  else none

/-- Reads a number of escaped octets that continue an encoded character. -/
def readContinuation : Nat → List Char → Option (List Octet × List Char)
  | 0, letters => some ([], letters)
  | count + 1, letters => do
      let (octet, letters) ← escapedOctet? letters
      if octet < 0x80 ∨ 0xC0 ≤ octet then none
      else
        let (octets, letters) ← readContinuation count letters
        some (octet :: octets, letters)

def readEscapedCharacter (letters : List Char) : Option (List Octet × List Char) := do
  let (octet, letters) ← escapedOctet? letters
  let (octets, letters) ← readContinuation (← continuation? octet) letters
  some (octet :: octets, letters)

/-- Reads the octets of a suffix. Each step passes a character, so as many steps as there are
characters suffice. -/
def readOctets (isFull : Bool) : Nat → List Char → Option (List Octet × List Char)
  | 0, letters => some ([], letters)
  | _, [] => some ([], [])
  | steps + 1, letter :: rest =>
      if letter = '%' then do
        let (octets, rest) ← readEscapedCharacter (letter :: rest)
        let (others, rest) ← readOctets isFull steps rest
        some (octets ++ others, rest)
      else if isTagLetter isFull letter then do
        let (others, rest) ← readOctets isFull steps rest
        some (letter.toNat :: others, rest)
      else some ([], letter :: rest)

/-- The octets in front of the first zero. -/
def beforeZero (octets : List Octet) : List Octet := octets.takeWhile (· ≠ 0)

/-- Reads a suffix, which may be empty. -/
def readSuffix (isFull : Bool) (cursor : Cursor) : Option (List Octet × Cursor) :=
  (readOctets isFull cursor.rest.length cursor.rest).map fun (octets, rest) =>
    (octets, cursor.skip (cursor.rest.length - rest.length))

/-- Reads a suffix that is not empty as it is written, and may be so in front of the first zero. -/
def readFilledSuffix (isFull : Bool) (cursor : Cursor) : Option (List Octet × Cursor) := do
  let (suffix, cursor) ← readSuffix isFull cursor
  if suffix = [] then none else some (beforeZero suffix, cursor)

/-- Reads an exclamation mark with the letters of a name behind it and the exclamation mark that may
close it. -/
def readHandle (cursor : Cursor) : Option (List Char × Cursor) :=
  match cursor.rest with
  | '!' :: _ =>
      let (name, cursor) := (cursor.skip 1).takeWhile isNameLetter
      match cursor.rest with
      | '!' :: _ => some ('!' :: name ++ ['!'], cursor.skip 1)
      | _ => some ('!' :: name, cursor)
  | _ => none

def isClosedHandle (handle : List Char) : Bool :=
  1 < handle.length && handle.getLast? == some '!'

/-- Reads a tag in full behind its angle bracket. -/
def readFullTag (cursor : Cursor) : Option (TagShorthand × Cursor) := do
  let (suffix, cursor) ← readFilledSuffix true cursor
  if cursor.rest.head? = some '>' then some (⟨[], suffix⟩, cursor.skip 1) else none

/-- Reads a tag with a handle. What only begins like a handle belongs to the suffix, and the handle
is a single exclamation mark; on its own the mark is a tag in full. -/
def readShortTag (cursor : Cursor) : Option (TagShorthand × Cursor) := do
  let (handle, cursor) ← readHandle cursor
  if isClosedHandle handle then
    let (suffix, cursor) ← readFilledSuffix false cursor
    some (⟨handle, suffix⟩, cursor)
  else
    let (suffix, cursor) ← readSuffix false cursor
    let suffix := octets handle.tail ++ beforeZero suffix
    some (if suffix.isEmpty then ⟨[], octets ['!']⟩ else ⟨['!'], suffix⟩, cursor)

/-- Reads a tag. White space follows it, or in a flow collection a comma. -/
def readTag (inFlow : Bool) (cursor : Cursor) : Option (TagShorthand × Cursor) := do
  let (tag, cursor) ←
    match cursor.rest with
    | '!' :: '<' :: _ => readFullTag (cursor.skip 2)
    | _ => readShortTag cursor
  if beginsWithSpace cursor.rest || (inFlow && cursor.rest.head? == some ',') then
    some (tag, cursor)
  else none

end ScriptLint.Yaml
