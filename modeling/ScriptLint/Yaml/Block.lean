import ScriptLint.Yaml.Cursor

/-!
# Block scalars

A block scalar is a run of indented lines behind a header. A literal one keeps its line breaks. A
folded one turns a line break between two lines into a space, unless one of them begins with a blank
or empty lines stand between them. The header says what becomes of the line breaks at the end, and
it may give the indentation; otherwise the first line that is not empty does.
-/

namespace ScriptLint.Yaml.Block

/-- What becomes of the line breaks at the end of a block scalar: one stays, none or all. -/
inductive Chomping where
  | clip
  | strip
  | keep
  deriving DecidableEq, Repr

structure Header where
  chomping : Chomping := .clip
  increment : Option Nat := none
  deriving DecidableEq, Repr

/-- Reads a sign for the line breaks at the end, if there is one. -/
def readChomping (cursor : Cursor) : Chomping × Cursor :=
  match cursor.rest with
  | '+' :: _ => (.keep, cursor.skip 1)
  | '-' :: _ => (.strip, cursor.skip 1)
  | _ => (.clip, cursor)

/-- Reads a digit for the indentation, if there is one. It must not be zero. -/
def readIncrement (cursor : Cursor) : Option (Option Nat × Cursor) :=
  match cursor.rest with
  | digit :: _ =>
      if digit = '0' then none
      else if digit.isDigit then some (some (digit.toNat - '0'.toNat), cursor.skip 1)
      else some (none, cursor)
  | [] => some (none, cursor)

/-- Reads a header with the rest of its line. The sign and the digit may stand in either order. -/
def readHeader (cursor : Cursor) : Option (Header × Cursor) := do
  let (first, cursor) := readChomping cursor
  let (increment, cursor) ← readIncrement cursor
  let (second, cursor) :=
    if first = .clip ∧ increment.isSome then readChomping cursor else (first, cursor)
  some ({ chomping := second, increment }, ← cursor.endLine?)

/-- The line breaks in front of a line, the greatest column reached in front of them, and the place
where the line begins. -/
structure Margin where
  breaks : List Char
  deepest : Nat
  cursor : Cursor

/-- Passes the indentation of lines and reads the breaks of empty ones. An indentation that is not
known yet takes all spaces. A tab must not stand in it. Each step passes a line break, so as many
steps as there are characters suffice. -/
def readMargin (indent : Option Nat) : Nat → Margin → Option Margin
  | 0, margin => some margin
  | steps + 1, margin =>
      let spaces := margin.cursor.rest.takeWhile (· == ' ')
      let count :=
        match indent with
        | some column => min spaces.length (column - margin.cursor.column)
        | none => spaces.length
      let cursor := margin.cursor.skip count
      let margin := { margin with cursor, deepest := max margin.deepest cursor.column }
      if cursor.rest.head? = some '\t' ∧ indent.all (cursor.column < ·) then none
      else if cursor.rest.head?.any isBreak then
        let (letters, cursor) := cursor.readBreak
        readMargin indent steps { margin with breaks := margin.breaks ++ letters, cursor }
      else some margin

/-- The lines of a block scalar read so far: their text, the break behind the last of them, the
breaks of the empty lines that follow, and whether the last of them begins with a blank. -/
structure Lines where
  letters : List Char := []
  lastBreak : List Char := []
  emptyLines : List Char := []
  lastIsBlank : Bool := false

/-- What stands between two lines, the second of which may begin with a blank. -/
def Lines.join (lines : Lines) (folded nextIsBlank : Bool) : List Char :=
  if folded && lines.lastBreak == ['\n'] && !lines.lastIsBlank && !nextIsBlank then
    if lines.emptyLines.isEmpty then [' '] else lines.emptyLines
  else lines.lastBreak ++ lines.emptyLines

/-- Reads lines that begin at the indentation. Each step passes a character, so as many steps as
there are characters suffice. -/
def readLines (folded : Bool) (indent : Nat) : Nat → Lines → Cursor → Option (Lines × Cursor)
  | 0, lines, cursor => some (lines, cursor)
  | steps + 1, lines, cursor =>
      if cursor.column ≠ indent ∨ cursor.rest.isEmpty then some (lines, cursor)
      else do
        let isBlankLine := cursor.rest.head?.any isBlank
        let (line, cursor) := cursor.takeWhile fun letter => !isBreak letter
        let (lastBreak, cursor) := cursor.readBreak
        let margin ← readMargin (some indent) cursor.rest.length ⟨[], 0, cursor⟩
        readLines folded indent steps
          { letters := lines.letters ++ lines.join folded isBlankLine ++ line
            lastBreak
            emptyLines := margin.breaks
            lastIsBlank := isBlankLine }
          margin.cursor

def Lines.chomp (lines : Lines) : Chomping → List Char
  | .strip => lines.letters
  | .clip => lines.letters ++ lines.lastBreak
  | .keep => lines.letters ++ lines.lastBreak ++ lines.emptyLines

/-- Reads a block scalar behind its indicator. Its lines begin at least at the column `floor`. -/
def read (folded : Bool) (floor : Nat) (cursor : Cursor) : Option (List Char × Cursor) := do
  let (header, cursor) ← readHeader cursor
  let given := header.increment.map (floor - 1 + ·)
  let margin ← readMargin given (cursor.rest.length + 1) ⟨[], 0, cursor⟩
  let indent := given.getD (max 1 (max floor margin.deepest))
  let (lines, cursor) ←
    readLines folded indent (cursor.rest.length + 1) { emptyLines := margin.breaks } margin.cursor
  some (lines.chomp header.chomping, cursor)

end ScriptLint.Yaml.Block
