import ScriptLint.Text.Basic

/-!
# Places in a YAML text

A cursor is a place in a text: what follows it, the number of bytes passed, and its line and column.
A column counts characters, so that it does not depend on how they are encoded. A line ends with any
of five characters, or with the pair of carriage return and line feed. The two separators are read
as they are and every other break as a line feed.
-/

namespace ScriptLint.Yaml

/-- A blank: a space or a tab. -/
def isBlank (letter : Char) : Bool := letter == ' ' || letter == '\t'

/-- The separators of lines and of paragraphs, which are kept when they are read. -/
def isSeparator (letter : Char) : Bool := letter.toNat == 0x2028 || letter.toNat == 0x2029

def isBreak (letter : Char) : Bool :=
  letter == '\n' || letter == '\r' || letter.toNat == 0x85 || isSeparator letter

/-- A character of names: of anchors, handles and directives. -/
def isNameLetter (letter : Char) : Bool := letter.isAlphanum || letter == '_' || letter == '-'

/-- A character that may stand in a text: no control character but tab, line feed, carriage return
and next line, and neither of the last two code points of four hexadecimal digits. -/
def isPermitted (letter : Char) : Bool :=
  let code := letter.toNat
  code == 0x09 || code == 0x0A || code == 0x0D || (0x20 ≤ code && code ≤ 0x7E) || code == 0x85 ||
    (0xA0 ≤ code && code ≤ 0xFFFD) || 0x10000 ≤ code

/-- The byte order mark. At the start of a line it says nothing, elsewhere it is a character as any
other. -/
def isMark (letter : Char) : Bool := letter.toNat == 0xFEFF

/-- A place in a text. -/
structure Cursor where
  rest : List Char
  index : Nat := 0
  line : Nat := 0
  column : Nat := 0
  deriving Repr

/-- Whether a text begins with a blank or a line break, or has ended. -/
def beginsWithSpace (letters : List Char) : Bool :=
  letters.head?.all fun letter => isBlank letter || isBreak letter

def beginsWithBreak (letters : List Char) : Bool := letters.head?.all isBreak

namespace Cursor

/-- The number of bytes passed behind a number of characters more. -/
def indexBehind (cursor : Cursor) (count : Nat) : Nat :=
  cursor.index + Text.byteLength (cursor.rest.take count)

def skip (cursor : Cursor) (count : Nat) : Cursor :=
  { cursor with
    rest := cursor.rest.drop count
    index := cursor.indexBehind count
    column := cursor.column + count }

/-- The characters up to the first that fails a test, and the place behind them. They have to be of
the same line. -/
def takeWhile (cursor : Cursor) (test : Char → Bool) : List Char × Cursor :=
  let letters := cursor.rest.takeWhile test
  (letters, cursor.skip letters.length)

def skipWhile (cursor : Cursor) (test : Char → Bool) : Cursor := (cursor.takeWhile test).2

/-- Passes a line break of a number of characters. -/
def newLine (cursor : Cursor) (count : Nat) : Cursor where
  rest := cursor.rest.drop count
  index := cursor.indexBehind count
  line := cursor.line + 1
  column := 0

def readBreak (cursor : Cursor) : List Char × Cursor :=
  match cursor.rest with
  | '\r' :: '\n' :: _ => (['\n'], cursor.newLine 2)
  | letter :: _ =>
      if isSeparator letter then ([letter], cursor.newLine 1)
      else if isBreak letter then (['\n'], cursor.newLine 1)
      else ([], cursor)
  | [] => ([], cursor)

/-- Passes a byte order mark if one stands at the start of the line. -/
def skipMark (cursor : Cursor) : Cursor :=
  if cursor.column == 0 && cursor.rest.head?.any isMark then cursor.skip 1 else cursor

/-- Passes a comment if there is one: what follows is a line break or the end. -/
def skipComment (cursor : Cursor) : Cursor :=
  match cursor.rest with
  | '#' :: _ => cursor.skipWhile fun letter => !isBreak letter
  | _ => cursor

/-- Passes what may stand behind the last word of a line and the line break, if nothing else
does. -/
def endLine? (cursor : Cursor) : Option Cursor :=
  let cursor := (cursor.skipWhile isBlank).skipComment
  if beginsWithBreak cursor.rest then some cursor.readBreak.2 else none

/-- Whether a marker of three characters stands here on its own at the start of a line. -/
def atMarker (cursor : Cursor) (marker : List Char) : Bool :=
  cursor.column == 0 && marker.isPrefixOf cursor.rest &&
    beginsWithSpace (cursor.rest.drop marker.length)

def atDocumentStart (cursor : Cursor) : Bool := cursor.atMarker ['-', '-', '-']

def atDocumentEnd (cursor : Cursor) : Bool := cursor.atMarker ['.', '.', '.']

def atDocumentMarker (cursor : Cursor) : Bool := cursor.atDocumentStart || cursor.atDocumentEnd

end Cursor

end ScriptLint.Yaml
