import ScriptLint.Text.Basic

/-!
# Documents

A document is a text with three views. Its lines are the pieces between line feeds, each without one
carriage return at its end; an empty text has no line. Its line starts are the byte positions at
which lines begin, and the text always has a first one. Positions of the text translate to a line
and a column, counted in bytes by `lineColumn` and in characters by `Document.position`.
-/

namespace ScriptLint

/-- The line without a carriage return at its end. -/
def dropReturn (letters : List Char) : List Char :=
  if letters.getLast? = some '\r' then letters.dropLast else letters

/-- The byte positions behind the line feeds of a text that begins at the given position. -/
def startsAfter (position : Nat) : List Char → List Nat
  | [] => []
  | letter :: rest =>
      let next := position + letter.utf8Size
      if letter == '\n' then next :: startsAfter next rest else startsAfter next rest

/-- The byte positions at which the lines of a text begin, in ascending order. -/
def lineStarts (letters : List Char) : List Nat := 0 :: startsAfter 0 letters

/-- The line that holds a byte position, and the position relative to the start of that line. A
position beyond the text belongs to the last line. -/
def lineColumn (starts : List Nat) (position : Nat) : Nat × Nat :=
  let line := (starts.takeWhile (· ≤ position)).length - 1
  (line, position - starts.getD line 0)

structure Document where
  text : List Char
  deriving DecidableEq, Repr

namespace Document

def ofString (text : String) : Document := ⟨text.toList⟩

def lines (document : Document) : List (List Char) :=
  if document.text.isEmpty then []
  else (Text.splitOn '\n' document.text).map dropReturn

def lineCount (document : Document) : Nat := document.lines.length

/-- Size of the text in bytes. -/
def size (document : Document) : Nat := Text.byteLength document.text

/-- A line by its number, empty beyond the last one. -/
def line (document : Document) (index : Nat) : List Char := document.lines.getD index []

/-- The line and the character column of a byte position. A position beyond the text counts as its
end, and one inside a character as the start of the line. -/
def position (document : Document) (offset : Nat) : Nat × Nat :=
  let starts := lineStarts document.text
  let offset := min offset document.size
  let (line, column) := lineColumn starts offset
  match Text.splitAtByte? document.text (starts.getD line 0) with
  | some (_, rest) => (line, ((Text.splitAtByte? rest column).map fun cut => cut.1.length).getD 0)
  | none => (line, 0)

/-- The lines put together again by line feeds. It differs from the text where carriage returns were
dropped. -/
def joined (document : Document) : List Char := Text.joinWith '\n' document.lines

end Document

end ScriptLint
