import ScriptLint.Json.Basic
import ScriptLint.Number.Digits
import ScriptLint.Text.Basic

/-!
# Reading JSON

A value is read from a cursor, which holds the byte position and the characters that follow it.
Every refusal has a cause and a byte position; the message turns the position into a line, counted
from one, and a byte column. Brackets may be nested 127 deep, and the readers of arrays and objects
recurse on the levels that are left.

A number with a point or an exponent, or beyond 64 bits, is read in two roundings: its digits, as
many as fit into 64 bits, are rounded to binary64 and then multiplied or divided once by the rounded
power of ten.
-/

namespace ScriptLint.Json

inductive Fault where
  | endInArray
  | endInObject
  | endInString
  | endInValue
  | expectedColon
  | expectedArrayEnd
  | expectedObjectEnd
  | expectedWord
  | expectedValue
  | invalidEscape
  | invalidNumber
  | numberOutOfRange
  | controlCharacter
  | keyNotString
  | loneSurrogate
  | trailingComma
  | trailingCharacters
  | endOfHexEscape
  | tooDeep
  deriving DecidableEq, Repr

def Fault.message : Fault → String
  | endInArray => "EOF while parsing a list"
  | endInObject => "EOF while parsing an object"
  | endInString => "EOF while parsing a string"
  | endInValue => "EOF while parsing a value"
  | expectedColon => "expected `:`"
  | expectedArrayEnd => "expected `,` or `]`"
  | expectedObjectEnd => "expected `,` or `\x7d`"
  | expectedWord => "expected ident"
  | expectedValue => "expected value"
  | invalidEscape => "invalid escape"
  | invalidNumber => "invalid number"
  | numberOutOfRange => "number out of range"
  | controlCharacter => "control character (\\u0000-\\u001F) found while parsing a string"
  | keyNotString => "key must be a string"
  | loneSurrogate => "lone leading surrogate in hex escape"
  | trailingComma => "trailing comma"
  | trailingCharacters => "trailing characters"
  | endOfHexEscape => "unexpected end of hex escape"
  | tooDeep => "recursion limit exceeded"

/-- A cause with the byte position at which it was noticed. -/
structure Refusal where
  fault : Fault
  position : Nat
  deriving DecidableEq, Repr

/-- A byte position and the characters from it on. -/
structure Cursor where
  position : Nat
  rest : List Char

namespace Cursor

def skip : Nat → Cursor → Cursor
  | 0, cursor => cursor
  | count + 1, ⟨position, letter :: rest⟩ => skip count ⟨position + letter.utf8Size, rest⟩
  | _ + 1, cursor => cursor

/-- The cursor before the first character that is not in the class, and the characters passed. -/
def takeWhile (test : Char → Bool) (cursor : Cursor) : List Char × Cursor :=
  let passed := cursor.rest.takeWhile test
  (passed, ⟨cursor.position + Text.byteLength passed, cursor.rest.drop passed.length⟩)

def skipSpace (cursor : Cursor) : Cursor :=
  (cursor.takeWhile fun letter =>
    letter == ' ' || letter == '\n' || letter == '\t' || letter == '\r').2

def refuse {α : Type} (cursor : Cursor) (fault : Fault) : Except Refusal α :=
  .error ⟨fault, cursor.position⟩

/-- A refusal one byte behind the cursor: the byte there has been seen. -/
def refuseNext {α : Type} (cursor : Cursor) (fault : Fault) : Except Refusal α :=
  .error ⟨fault, cursor.position + 1⟩

end Cursor

/-- What a reader returns: a refusal, or usually a value and the cursor behind it. -/
abbrev Reading := Except Refusal

/-- Reads the rest of a word whose first letter has been passed. -/
def readWord (value : Json) : List Char → Cursor → Reading (Json × Cursor)
  | [], cursor => .ok (value, cursor)
  | expected :: letters, cursor =>
      match cursor.rest with
      | [] => cursor.refuse .endInValue
      | letter :: _ =>
          if letter = expected then readWord value letters (cursor.skip 1)
          else cursor.refuseNext .expectedWord

/-! ## Numbers -/

def greatestNatural : Nat := Nat.pow 2 64 - 1

def digitValue (digit : Char) : Nat := digit.toNat - '0'.toNat

/-- Appends digits to a significand while the result fits into 64 bits, and counts the digits left
over from the first that does not fit. -/
def absorb (significand : Nat) : List Char → Nat × Nat
  | [] => (significand, 0)
  | digit :: digits =>
      let next := significand * 10 + digitValue digit
      if next ≤ greatestNatural then absorb next digits else (significand, digits.length + 1)

/-- A power of ten rounded to binary64. -/
def roundedPower (exponent : Nat) : Binary64 := Binary64.ofNat false (Nat.pow 10 exponent)

/-- The number times `10 ^ exponent`: one multiplication or division by a rounded power of ten, and
before it divisions by `10 ^ 308` as long as the exponent is out of reach. Two of them leave
zero. -/
def scaled? : Nat → Binary64 → Int → Option Binary64
  | 0, value, _ => some value
  | attempts + 1, value, exponent =>
      if exponent.natAbs ≤ 308 then
        let power := roundedPower exponent.natAbs
        if 0 ≤ exponent then value.multiply? power else value.divide? power
      else if value.isZero then some value
      else if 0 ≤ exponent then none
      else (value.divide? (roundedPower 308)).bind fun smaller =>
        scaled? attempts smaller (exponent + 308)

/-- The number written as a signed significand and a power of ten, or a refusal at the cursor if it
is out of range. -/
def realOf (negative : Bool) (significand : Nat) (exponent : Int) (cursor : Cursor) :
    Reading (Json × Cursor) :=
  match scaled? 4 (Binary64.ofNat false significand) exponent with
  | some value => .ok (Json.number (.real (value.withSign negative)), cursor)
  | none => cursor.refuse .numberOutOfRange

/-- The greatest exponent that is taken as written. -/
def greatestExponent : Nat := Nat.pow 2 31 - 1

/-- The exponent read from its digits, or the number of digits up to the one that leads beyond the
greatest exponent. -/
def exponentOf (value passed : Nat) : List Char → Nat ⊕ Nat
  | [] => .inl value
  | digit :: digits =>
      let next := value * 10 + digitValue digit
      if next ≤ greatestExponent then exponentOf next (passed + 1) digits else .inr (passed + 1)

def readExponent (negative : Bool) (significand : Nat) (scale : Int) (cursor : Cursor) :
    Reading (Json × Cursor) :=
  let (descending, cursor) : Bool × Cursor :=
    match cursor.rest with
    | '+' :: _ => (false, cursor.skip 1)
    | '-' :: _ => (true, cursor.skip 1)
    | _ => (false, cursor)
  let (digits, behind) := cursor.takeWhile Char.isDigit
  match cursor.rest, digits with
  | [], _ => cursor.refuse .endInValue
  | _, [] => cursor.refuseNext .invalidNumber
  | _, _ =>
      match exponentOf 0 0 digits with
      | .inl exponent =>
          realOf negative significand (if descending then scale - exponent else scale + exponent)
            behind
      | .inr passed =>
          if significand ≠ 0 ∧ ¬descending then (cursor.skip passed).refuse .numberOutOfRange
          else .ok (Json.number (.real (.zero negative)), behind)

/-- Reads an exponent if there is one, and else ends the number. -/
def readScale (negative : Bool) (significand : Nat) (scale : Int) (cursor : Cursor) :
    Reading (Json × Cursor) :=
  match cursor.rest with
  | 'e' :: _ | 'E' :: _ => readExponent negative significand scale (cursor.skip 1)
  | _ => realOf negative significand scale cursor

def readDecimals (negative : Bool) (significand : Nat) (scale : Int) (cursor : Cursor) :
    Reading (Json × Cursor) :=
  let (digits, behind) := cursor.takeWhile Char.isDigit
  match digits, cursor.rest with
  | [], [] => cursor.refuseNext .endInValue
  | [], _ => cursor.refuseNext .invalidNumber
  | _, _ =>
      let (absorbed, leftOver) := absorb significand digits
      readScale negative absorbed (scale - (digits.length - leftOver : Nat)) behind

/-- Reads a number behind its sign. A zero has no digit after it, and minus zero is no integer. -/
def readNumber (negative : Bool) (cursor : Cursor) : Reading (Json × Cursor) :=
  let (digits, behind) := cursor.takeWhile Char.isDigit
  match cursor.rest, digits with
  | [], _ => cursor.refuse .endInValue
  | _, [] => cursor.refuseNext .invalidNumber
  | _, '0' :: _ :: _ => (cursor.skip 1).refuseNext .invalidNumber
  | _, _ =>
      let (significand, leftOver) := absorb 0 digits
      match behind.rest with
      | '.' :: _ => readDecimals negative significand leftOver (behind.skip 1)
      | 'e' :: _ | 'E' :: _ => readExponent negative significand leftOver (behind.skip 1)
      | _ =>
          if leftOver ≠ 0 then realOf negative significand leftOver behind
          else if ¬negative then .ok (Json.number (.natural significand), behind)
          else if 0 < significand ∧ significand ≤ Nat.pow 2 63 then
            .ok (Json.number (.negative significand), behind)
          else .ok (Json.number (.real (.ofNat true significand)), behind)

/-! ## Strings -/

def readHex (cursor : Cursor) : Reading (Nat × Cursor) :=
  if Text.byteLength cursor.rest < 4 then
    .error ⟨.endInString, cursor.position + Text.byteLength cursor.rest⟩
  else
    match Number.ofDigits? 16 (cursor.rest.take 4) with
    | some value => .ok (value, cursor.skip 4)
    | none => .error ⟨.invalidEscape, cursor.position + 4⟩

/-- Reads the marker of the second half of a surrogate pair. -/
def readPairMarker (expected : Char) (cursor : Cursor) : Reading (Unit × Cursor) :=
  match cursor.rest with
  | [] => cursor.refuse .endInString
  | letter :: _ =>
      if letter = expected then .ok ((), cursor.skip 1) else cursor.refuseNext .endOfHexEscape

/-- Reads a character given by its number. A number beyond 16 bits is written as two surrogates. -/
def readNumbered (cursor : Cursor) : Reading (Char × Cursor) := do
  let (first, cursor) ← readHex cursor
  if 0xDC00 ≤ first ∧ first ≤ 0xDFFF then cursor.refuse .loneSurrogate
  else if first < 0xD800 ∨ 0xDFFF < first then .ok (Char.ofNat first, cursor)
  else
    let (_, cursor) ← readPairMarker '\\' cursor
    let (_, cursor) ← readPairMarker 'u' cursor
    let (second, cursor) ← readHex cursor
    if second < 0xDC00 ∨ 0xDFFF < second then cursor.refuse .loneSurrogate
    else
      .ok (Char.ofNat ((first - 0xD800) * 0x400 + (second - 0xDC00) + 0x10000), cursor)

def readEscape (cursor : Cursor) : Reading (Char × Cursor) :=
  let plain (letter : Char) : Reading (Char × Cursor) := .ok (letter, cursor.skip 1)
  match cursor.rest with
  | [] => cursor.refuse .endInString
  | '"' :: _ => plain '"'
  | '\\' :: _ => plain '\\'
  | '/' :: _ => plain '/'
  | 'b' :: _ => plain '\x08'
  | 'f' :: _ => plain '\x0c'
  | 'n' :: _ => plain '\n'
  | 'r' :: _ => plain '\r'
  | 't' :: _ => plain '\t'
  | 'u' :: _ => readNumbered (cursor.skip 1)
  | _ => cursor.refuseNext .invalidEscape

/-- Reads a string up to and with its closing quote. The letters read so far come last first, and
each step passes at least one character, so as many steps as there are characters suffice. -/
def readLetters : Nat → List Char → Cursor → Reading (String × Cursor)
  | 0, _, cursor => cursor.refuse .endInString
  | steps + 1, letters, cursor =>
      match cursor.rest with
      | [] => cursor.refuse .endInString
      | '"' :: _ => .ok (String.ofList letters.reverse, cursor.skip 1)
      | '\\' :: _ => do
          let (letter, cursor) ← readEscape (cursor.skip 1)
          readLetters steps (letter :: letters) cursor
      | letter :: _ =>
          if letter.toNat < 0x20 then cursor.refuseNext .controlCharacter
          else readLetters steps (letter :: letters) (cursor.skip 1)

def readString (cursor : Cursor) : Reading (String × Cursor) :=
  readLetters (cursor.rest.length + 1) [] cursor

/-! ## Arrays and objects -/

/-- Reads the elements of an array up to and with its closing bracket. -/
def readElements (readOne : Cursor → Reading (Json × Cursor)) :
    Nat → List Json → Cursor → Reading (List Json × Cursor)
  | 0, _, cursor => cursor.refuse .endInArray
  | steps + 1, elements, cursor => do
      let cursor := cursor.skipSpace
      let proceed (cursor : Cursor) : Reading (List Json × Cursor) := do
        let (element, cursor) ← readOne cursor
        readElements readOne steps (element :: elements) cursor
      match cursor.rest with
      | [] => cursor.refuseNext .endInArray
      | ']' :: _ => .ok (elements.reverse, cursor.skip 1)
      | letter :: _ =>
          if elements.isEmpty then proceed cursor
          else if letter ≠ ',' then cursor.refuseNext .expectedArrayEnd
          else
            let cursor := (cursor.skip 1).skipSpace
            match cursor.rest with
            | [] => cursor.refuseNext .endInValue
            | ']' :: _ => cursor.refuseNext .trailingComma
            | _ => proceed cursor

/-- Reads the members of an object up to and with its closing brace. -/
def readMembers (readOne : Cursor → Reading (Json × Cursor)) :
    Nat → List (String × Json) → Cursor → Reading (List (String × Json) × Cursor)
  | 0, _, cursor => cursor.refuse .endInObject
  | steps + 1, members, cursor => do
      let cursor := cursor.skipSpace
      let proceed (cursor : Cursor) : Reading (List (String × Json) × Cursor) := do
        let (name, cursor) ← readString (cursor.skip 1)
        let cursor := cursor.skipSpace
        match cursor.rest with
        | [] => cursor.refuseNext .endInObject
        | ':' :: _ =>
            let (value, cursor) ← readOne (cursor.skip 1)
            readMembers readOne steps ((name, value) :: members) cursor
        | _ => cursor.refuseNext .expectedColon
      match cursor.rest with
      | [] => cursor.refuseNext .endInObject
      | '\x7d' :: _ => .ok (members.reverse, cursor.skip 1)
      | letter :: _ =>
          if members.isEmpty then
            if letter = '"' then proceed cursor else cursor.refuseNext .keyNotString
          else if letter ≠ ',' then cursor.refuseNext .expectedObjectEnd
          else
            let cursor := (cursor.skip 1).skipSpace
            match cursor.rest with
            | [] => cursor.refuseNext .endInValue
            | '"' :: _ => proceed cursor
            | '\x7d' :: _ => cursor.refuseNext .trailingComma
            | _ => cursor.refuseNext .keyNotString

/-- Reads a value in which brackets may open the given number of levels. -/
def readValue (levels : Nat) (cursor : Cursor) : Reading (Json × Cursor) :=
  let cursor := cursor.skipSpace
  match cursor.rest with
  | [] => cursor.refuseNext .endInValue
  | 'n' :: _ => readWord .null ['u', 'l', 'l'] (cursor.skip 1)
  | 't' :: _ => readWord (.bool true) ['r', 'u', 'e'] (cursor.skip 1)
  | 'f' :: _ => readWord (.bool false) ['a', 'l', 's', 'e'] (cursor.skip 1)
  | '-' :: _ => readNumber true (cursor.skip 1)
  | '"' :: _ => do
      let (text, cursor) ← readString (cursor.skip 1)
      .ok (.string text, cursor)
  | '[' :: rest =>
      match levels with
      | 0 => cursor.refuseNext .tooDeep
      | inner + 1 => do
          let (elements, cursor) ←
            readElements (readValue inner) (rest.length + 1) [] (cursor.skip 1)
          .ok (.array elements, cursor)
  | '\x7b' :: rest =>
      match levels with
      | 0 => cursor.refuseNext .tooDeep
      | inner + 1 => do
          let (members, cursor) ←
            readMembers (readValue inner) (rest.length + 1) [] (cursor.skip 1)
          .ok (.ofMembers members, cursor)
  | letter :: _ =>
      if letter.isDigit then readNumber false cursor else cursor.refuseNext .expectedValue

def read (letters : List Char) : Except Refusal Json := do
  let (value, cursor) ← readValue 127 ⟨0, letters⟩
  let cursor := cursor.skipSpace
  if cursor.rest.isEmpty then .ok value else cursor.refuseNext .trailingCharacters

/-- The line of a byte position, counted from one, and the byte column in it. -/
def lineAndColumn (line column : Nat) : List Char → Nat → Nat × Nat
  | _, 0 => (line, column)
  | [], _ => (line, column)
  | letter :: rest, position =>
      if letter == '\n' then lineAndColumn (line + 1) 0 rest (position - 1)
      else
        let passed := min letter.utf8Size position
        lineAndColumn line (column + passed) rest (position - passed)

/-- The wording of a refusal of the given text. A position beyond the end counts as the end. -/
def Refusal.message (refusal : Refusal) (letters : List Char) : String :=
  let (line, column) := lineAndColumn 1 0 letters refusal.position
  s!"{refusal.fault.message} at line {line} column {column}"

/-- Reads a whole text as one value, with a refusal in words. -/
def parse (text : String) : Except String Json :=
  (read text.toList).mapError fun refusal => refusal.message text.toList

end ScriptLint.Json
