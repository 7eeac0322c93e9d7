import ScriptLint.Source.Line
import ScriptLint.Source.Brace
import ScriptLint.Document

/-!
# The line scanner

The scanner is fed the lines of a document one after the other and reads each of them character by
character, with one character of lookahead. It knows just enough of the lexical structure to tell
code from comments, strings, regular expressions and template literals, and to keep the stack of
open delimiters. It is no parser: a closing delimiter closes whatever is innermost.

Every character contributes exactly its own bytes to the code of the line: itself, or as many spaces
if it belongs to a comment. A comment never changes what the scanner remembers of the code before
it.
-/

namespace ScriptLint

/-- What goes on from one line to the next. -/
inductive Mode where
  | code
  | blockComment
  /-- Inside a template literal, with the number of braces open in its interpolation. -/
  | template (depth : Nat)
  deriving DecidableEq, Repr

/-- The last token of the code, as far as it decides what follows. -/
inductive Token where
  | start
  | word (letters : List Char)
  | mark (letter : Char)
  /-- A string, a template literal or a regular expression. -/
  | value
  deriving DecidableEq, Repr

/-- What the scanner remembers between two lines. -/
structure Scanner where
  mode : Mode := .code
  /-- The open delimiters, innermost first. -/
  stack : List Frame := []
  last : Token := .start
  /-- The trimmed code of the last line that carries code. -/
  previous : List Char := []
  deriving DecidableEq, Repr

/-- What the scanner is reading within a line. -/
inductive Within where
  | plain
  /-- A word that the next character may continue. -/
  | word
  | string (quote : Char)
  | regex (inClass : Bool)
  /-- The letters behind a regular expression. -/
  | flags
  | lineComment
  /-- The second character of the opening of a block comment. -/
  | blockOpening
  | blockComment
  /-- The second character of the end of a block comment. -/
  | blockClosing
  | template (depth : Nat)
  /-- A character that has no meaning of its own, and what is read behind it. -/
  | held (after : Within)
  deriving DecidableEq, Repr

/-- What is read at the start of a line. -/
def Mode.enter : Mode → Within
  | code => .plain
  | blockComment => .blockComment
  | template depth => .template depth

def Mode.opened : Mode → Option (RegionKind × Nat)
  | code => none
  | blockComment => some (.comment, 0)
  | template _ => some (.template, 0)

/-- What goes on behind the end of a line: strings, regular expressions and line comments end with
their line. -/
def Within.leave : Within → Mode
  | blockOpening | blockComment | blockClosing => .blockComment
  | template depth => .template depth
  | held after => after.leave
  | _ => .code

/-- The words behind which a parenthesis holds a condition. -/
def headerWords : List String := ["if", "for", "while", "switch", "catch", "with"]

/-- The words behind which a slash begins a regular expression. -/
def valueWords : List String :=
  ["return", "typeof", "case", "do", "else", "in", "of", "new", "delete", "void", "throw",
    "yield", "await", "instanceof"]

def Token.isOneOf (words : List String) : Token → Bool
  | word letters => words.any fun word => word.toList == letters
  | _ => false

/-- Whether a slash behind the token begins a regular expression and is no division. -/
def Token.allowsRegex : Token → Bool
  | start => true
  | mark letter => !(letter == ')' || letter == ']' || letter == '\x7d')
  | token@(word _) => token.isOneOf valueWords
  | value => false

/-- The state of the scanner within a line. -/
structure Progress where
  within : Within
  stack : List Frame
  last : Token
  /-- The code read so far, its last character first. -/
  reversed : List Char
  /-- The byte position in the line. -/
  position : Nat
  /-- The region that has begun, with its start. -/
  opened : Option (RegionKind × Nat)
  /-- The regions that have ended, the last one first. -/
  closed : List Region
  deriving DecidableEq, Repr

/-- What is known about a line before it is read: its number and the code above it. -/
structure LineContext where
  index : Nat
  /-- The trimmed code of the last line that carries code. -/
  previous : List Char
  deriving DecidableEq, Repr

namespace Progress

def keep (progress : Progress) (letter : Char) : Progress :=
  { progress with
    reversed := letter :: progress.reversed
    position := progress.position + letter.utf8Size }

/-- Passes a character that belongs to a comment: as many spaces as it has bytes. -/
def hide (progress : Progress) (letter : Char) : Progress :=
  { progress with
    reversed := List.replicate letter.utf8Size ' ' ++ progress.reversed
    position := progress.position + letter.utf8Size }

def goOn (progress : Progress) (within : Within) : Progress := { progress with within }

def remember (progress : Progress) (last : Token) : Progress := { progress with last }

def openRegion (progress : Progress) (kind : RegionKind) : Progress :=
  { progress with opened := some (kind, progress.position) }

/-- Ends the region that has begun, if any, at the position. -/
def closeRegion (progress : Progress) : Progress :=
  match progress.opened with
  | some (kind, start) =>
      { progress with
        opened := none
        closed := ⟨kind, start, progress.position⟩ :: progress.closed }
  | none => progress

def push (progress : Progress) (frame : Frame) : Progress :=
  { progress with stack := frame :: progress.stack }

/-- Closes the innermost delimiter, if any. -/
def pop (progress : Progress) : Progress := { progress with stack := progress.stack.tail }

/-- Passes a mark of the code: it stays, and it is the last token. -/
def keepMark (progress : Progress) (letter : Char) : Progress :=
  ((progress.keep letter).remember (.mark letter)).goOn .plain

/-- Passes a character of a word, which begins a word or continues the last one. -/
def keepWord (progress : Progress) (letter : Char) : Progress :=
  let letters :=
    match progress.within, progress.last with
    | .word, .word letters => letters ++ [letter]
    | _, _ => [letter]
  ((progress.keep letter).remember (.word letters)).goOn .word

/-- Reads a character of code, with the character behind it. -/
def readCode (context : LineContext) (letter : Char) (next : Option Char)
    (progress : Progress) : Progress :=
  if letter == '/' && next == some '/' then
    ((progress.openRegion .comment).hide letter).goOn .lineComment
  else if letter == '/' && next == some '*' then
    ((progress.openRegion .comment).hide letter).goOn .blockOpening
  else if letter == '/' && progress.last.allowsRegex then
    ((progress.keep letter).remember .value).goOn (.regex false)
  else if letter == '"' || letter == '\'' then
    ((progress.keep letter).remember .value).goOn (.string letter)
  else if letter == '`' then
    ((progress.openRegion .template).keep letter).goOn (.template 0)
  else if letter == '(' then
    (progress.push (.paren (progress.last.isOneOf headerWords))).keepMark letter
  else if letter == '[' then (progress.push .bracket).keepMark letter
  else if letter == '\x7b' then
    let kind := Brace.judge progress.reversed context.previous progress.stack.head?
    (progress.push (.brace kind context.index)).keepMark letter
  else if letter == ')' || letter == ']' || letter == '\x7d' then progress.pop.keepMark letter
  else if Text.isIdentifier letter then progress.keepWord letter
  else if Text.isSpace letter then (progress.keep letter).goOn .plain
  else progress.keepMark letter

def readString (quote letter : Char) (progress : Progress) : Progress :=
  let kept := progress.keep letter
  if letter == '\\' then kept.goOn (.held (.string quote))
  else if letter == quote then kept.goOn .plain
  else kept

/-- Reads a character of a regular expression. A slash inside a class of characters does not end
it. -/
def readRegex (inClass : Bool) (letter : Char) (progress : Progress) : Progress :=
  let kept := progress.keep letter
  if letter == '\\' then kept.goOn (.held (.regex inClass))
  else if letter == '[' then kept.goOn (.regex true)
  else if letter == ']' then kept.goOn (.regex false)
  else if letter == '/' && !inClass then kept.goOn .flags
  else kept

/-- Reads a character of a template literal. A backtick ends it outside interpolations. -/
def readTemplate (depth : Nat) (letter : Char) (next : Option Char) (progress : Progress) :
    Progress :=
  let kept := progress.keep letter
  if letter == '\\' then kept.goOn (.held (.template depth))
  else if letter == '$' && next == some '\x7b' then kept.goOn (.held (.template (depth + 1)))
  else if letter == '\x7b' && 0 < depth then kept.goOn (.template (depth + 1))
  else if letter == '\x7d' && 0 < depth then kept.goOn (.template (depth - 1))
  else if letter == '`' && depth == 0 then (kept.closeRegion.remember .value).goOn .plain
  else kept

/-- Reads one character, with the character behind it. -/
def read (context : LineContext) (letter : Char) (next : Option Char)
    (progress : Progress) : Progress :=
  match progress.within with
  | .plain | .word => progress.readCode context letter next
  | .string quote => progress.readString quote letter
  | .regex inClass => progress.readRegex inClass letter
  | .flags =>
      if letter.isAlpha then progress.keep letter
      else (progress.goOn .plain).readCode context letter next
  | .lineComment => progress.hide letter
  | .blockOpening => (progress.hide letter).goOn .blockComment
  | .blockComment =>
      if letter == '*' && next == some '/' then (progress.hide letter).goOn .blockClosing
      else progress.hide letter
  | .blockClosing => ((progress.hide letter).closeRegion).goOn .plain
  | .template depth => progress.readTemplate depth letter next
  | .held after => (progress.keep letter).goOn after

def readAll (context : LineContext) : List Char → Progress → Progress
  | [], progress => progress
  | letter :: rest, progress =>
      readAll context rest (progress.read context letter rest.head?)

def code (progress : Progress) : List Char := progress.reversed.reverse

/-- The regions of the line, in order, when its end has been reached. -/
def regions (progress : Progress) : List Region := progress.closeRegion.closed.reverse

end Progress

namespace Scanner

def lineState (scanner : Scanner) : LineState :=
  match scanner.mode with
  | .blockComment => .inBlockComment
  | .template _ => .inExpression
  | .code =>
      match scanner.stack with
      | .paren true :: _ => .inCondition
      | frame :: _ => if frame.isExpression then .inExpression else .normal
      | [] => .normal

def isInTemplate (scanner : Scanner) : Bool :=
  match scanner.mode with
  | .template _ => true
  | _ => false

def begin (scanner : Scanner) : Progress where
  within := scanner.mode.enter
  stack := scanner.stack
  last := scanner.last
  reversed := []
  position := 0
  opened := scanner.mode.opened
  closed := []

def progressOver (scanner : Scanner) (index : Nat) (text : List Char) : Progress :=
  scanner.begin.readAll ⟨index, scanner.previous⟩ text

/-- Scans one line, which has the given number: what is learned about it, and the scanner behind
it. -/
def scanLine (scanner : Scanner) (index : Nat) (text : List Char) : ScannedLine × Scanner :=
  let progress := scanner.progressOver index text
  let line : ScannedLine :=
    { text
      state := scanner.lineState
      startsInTemplate := scanner.isInTemplate
      startStack := scanner.stack
      endStack := progress.stack
      regions := progress.regions
      code := progress.code }
  let behind : Scanner :=
    { mode := progress.within.leave
      stack := progress.stack
      last := progress.last
      previous :=
        if line.trimmed.isEmpty || line.startsInTemplate then scanner.previous else line.trimmed }
  (line, behind)

def scanNumbered (scanner : Scanner) : List (Nat × List Char) → List ScannedLine
  | [] => []
  | (index, text) :: rest =>
      let (line, behind) := scanner.scanLine index text
      line :: behind.scanNumbered rest

end Scanner

def Document.scan (document : Document) : List ScannedLine :=
  ({} : Scanner).scanNumbered (document.lines.zipIdx.map fun entry => (entry.2, entry.1))

/-- Number of lines to pass until one carries code. -/
def linesToCode? (following : List ScannedLine) : Option Nat :=
  following.findIdx? ScannedLine.isCode

end ScriptLint
