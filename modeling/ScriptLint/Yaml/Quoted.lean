import ScriptLint.Number.Digits
import ScriptLint.Yaml.Gap

/-!
# Quoted scalars

Between single quotes every character stands for itself, and a quote is written twice. Between
double quotes a backslash begins an escape: one letter for a character, digits for a code point, or
a line break that counts for nothing. Both kinds may go over several lines, none of which begins
with the marker of a document.
-/

namespace ScriptLint.Yaml.Quoted

/-- The character that a letter behind a backslash stands for. -/
def escaped? : Char → Option Char
  | '0' => some '\x00'
  | 'a' => some '\x07'
  | 'b' => some '\x08'
  | 't' | '\t' => some '\t'
  | 'n' => some '\n'
  | 'v' => some '\x0b'
  | 'f' => some '\x0c'
  | 'r' => some '\r'
  | 'e' => some '\x1b'
  | ' ' => some ' '
  | '"' => some '"'
  | '/' => some '/'
  | '\\' => some '\\'
  | 'N' => some '\u0085'
  | '_' => some '\u00a0'
  | 'L' => some '\u2028'
  | 'P' => some '\u2029'
  | _ => none

/-- How many hexadecimal digits follow a letter behind a backslash. -/
def escapeDigits? : Char → Option Nat
  | 'x' => some 2
  | 'u' => some 4
  | 'U' => some 8
  | _ => none

/-- The character with a code point, which must not be a surrogate. -/
def character? (code : Nat) : Option Char :=
  if h : code.isValidChar then some (Char.ofNatAux code h) else none

def readEscape (cursor : Cursor) : Option (Char × Cursor) :=
  match cursor.rest with
  | [] => none
  | letter :: rest =>
      match escapeDigits? letter with
      | none => (escaped? letter).map fun value => (value, cursor.skip 1)
      | some count =>
          if rest.length < count then none
          else do
            let value ← character? (← Number.ofDigits? 16 (rest.take count))
            some (value, cursor.skip (count + 1))

/-- A run of letters without white space, whether a line break that counts for nothing ends it, and
the place behind it. -/
structure Run where
  letters : List Char
  endsInEscapedBreak : Bool
  cursor : Cursor

/-- Reads a run between single quotes, up to white space or the closing quote. The letters read so
far come last first. -/
def readSingle : Nat → List Char → Cursor → Run
  | 0, letters, cursor => ⟨letters.reverse, false, cursor⟩
  | steps + 1, letters, cursor =>
      match cursor.rest with
      | '\'' :: '\'' :: _ => readSingle steps ('\'' :: letters) (cursor.skip 2)
      | '\'' :: _ => ⟨letters.reverse, false, cursor⟩
      | letter :: rest =>
          if beginsWithSpace (letter :: rest) then ⟨letters.reverse, false, cursor⟩
          else readSingle steps (letter :: letters) (cursor.skip 1)
      | [] => ⟨letters.reverse, false, cursor⟩

/-- Reads a run between double quotes, up to white space or the closing quote. The letters read so
far come last first. -/
def readDouble : Nat → List Char → Cursor → Option Run
  | 0, letters, cursor => some ⟨letters.reverse, false, cursor⟩
  | steps + 1, letters, cursor =>
      match cursor.rest with
      | '"' :: _ => some ⟨letters.reverse, false, cursor⟩
      | '\\' :: rest =>
          if rest.head?.any isBreak then
            some ⟨letters.reverse, true, (cursor.skip 1).readBreak.2⟩
          else do
            let (letter, cursor) ← readEscape (cursor.skip 1)
            readDouble steps (letter :: letters) cursor
      | letter :: rest =>
          if beginsWithSpace (letter :: rest) then some ⟨letters.reverse, false, cursor⟩
          else readDouble steps (letter :: letters) (cursor.skip 1)
      | [] => some ⟨letters.reverse, false, cursor⟩

def readRun (quote : Char) (cursor : Cursor) : Option Run :=
  if quote = '\'' then some (readSingle cursor.rest.length [] cursor)
  else readDouble cursor.rest.length [] cursor

/-- Reads on behind the letters read so far, up to and with the closing quote. Each step passes a
character, so as many steps as there are characters suffice. -/
def readOn (quote : Char) : Nat → List Char → Cursor → Option (List Char × Cursor)
  | 0, _, _ => none
  | steps + 1, letters, cursor =>
      if cursor.atDocumentMarker || cursor.rest.isEmpty then none
      else do
        let run ← readRun quote cursor
        let letters := letters ++ run.letters
        if run.cursor.rest.head? = some quote then some (letters, run.cursor.skip 1)
        else
          let start : Gap := if run.endsInEscapedBreak then .escapedBreak else {}
          let (gap, cursor) ← start.read 0 run.cursor
          readOn quote steps (letters ++ gap.letters) cursor

def read (quote : Char) (cursor : Cursor) : Option (List Char × Cursor) :=
  readOn quote cursor.rest.length [] (cursor.skip 1)

end ScriptLint.Yaml.Quoted
