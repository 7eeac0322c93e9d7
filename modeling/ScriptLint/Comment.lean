import ScriptLint.Text.Basic

/-!
# Comments on a single line

Three heuristics that look at one line alone, without knowing what stands above it. They search for
the comment markers wherever they are, in strings too; rules that need to know better use the
scanner.
-/

namespace ScriptLint.Comment

def lineMarker : List Char := ['/', '/']

def blockOpening : List Char := ['/', '*']

def blockClosing : List Char := ['*', '/']

/-- Whether a line looks like part of a comment: it begins with a marker or with the star of a
continued block, or it ends with the end of a block. -/
def isCommentLine (line : List Char) : Bool :=
  let trimmed := Text.trim line
  lineMarker.isPrefixOf trimmed || blockOpening.isPrefixOf trimmed || ['*'].isPrefixOf trimmed ||
    blockClosing.isSuffixOf trimmed

/-- The line without its comment, before trimming. A line marker wins over a block, and of a block
that closes on the line both sides stay. -/
def uncommented (line : List Char) : List Char :=
  match Text.cutAt? lineMarker line with
  | some (before, _) => before
  | none =>
      match Text.cutAt? blockOpening line with
      | some (before, inside) =>
          match Text.cutAt? blockClosing inside with
          | some (_, after) => before ++ after
          | none => before
      | none => line

/-- The code of a line: without its comment and without white space at its ends. -/
def code (line : List Char) : List Char := Text.trim (uncommented line)

def isInLineComment (line : List Char) (position : Nat) : Bool :=
  match Text.cutAt? lineMarker line with
  | some (before, _) => Text.byteLength before < position
  | none => false

/-- Whether a byte position is behind the first byte of a block and not behind its end. -/
def isInBlockComment (line : List Char) (position : Nat) : Bool :=
  match Text.cutAt? blockOpening line with
  | some (before, inside) =>
      let opening := Text.byteLength before
      match Text.cutAt? blockClosing inside with
      | some (comment, _) => opening < position && position < opening + Text.byteLength comment + 4
      | none => opening < position
  | none => false

/-- Whether a byte position of a line is inside a comment. Every position is on a line that
continues a block with a star. -/
def isIn (line : List Char) (position : Nat) : Bool :=
  isInLineComment line position || isInBlockComment line position ||
    ['*'].isPrefixOf (Text.trimStart line)

end ScriptLint.Comment
