import ScriptLint.Source.Frame
import ScriptLint.Text.Basic

/-!
# Scanned lines

What the scanner learns about one line: the delimiters open at its two ends, the byte ranges that
comments and template literals cover, and its code, in which comment text is replaced by as many
spaces as it has bytes, so that byte columns of the code are byte columns of the line.
-/

namespace ScriptLint

/-- Where a line begins. -/
inductive LineState where
  | normal
  | inBlockComment
  /-- Inside an expression that goes on over several lines, a template literal for one. -/
  | inExpression
  /-- Directly inside the parentheses of a control keyword. -/
  | inCondition
  deriving DecidableEq, Repr

inductive RegionKind where
  | comment
  | template
  deriving DecidableEq, Repr

/-- A byte range of a line, its end not included. -/
structure Region where
  kind : RegionKind
  start : Nat
  stop : Nat
  deriving DecidableEq, Repr

def Region.holds (region : Region) (position : Nat) : Bool :=
  region.start ≤ position && position < region.stop

/-- A line with everything the scanner learned about it. -/
structure ScannedLine where
  /-- The line as written. -/
  text : List Char
  state : LineState
  /-- The line begins inside a template literal. -/
  startsInTemplate : Bool
  /-- The delimiters open at the start of the line, innermost first. -/
  startStack : List Frame
  /-- The delimiters open at the end of the line, innermost first. -/
  endStack : List Frame
  regions : List Region
  /-- The line with comment text replaced by spaces, one for each byte. -/
  code : List Char
  deriving DecidableEq, Repr

namespace ScannedLine

/-- The code without white space at its ends. -/
def trimmed (line : ScannedLine) : List Char := Text.trim line.code

def isBlank (line : ScannedLine) : Bool := Text.isBlank line.text

/-- The line is not blank, but all of it outside comments is white space. -/
def isComment (line : ScannedLine) : Bool := !line.isBlank && line.trimmed.isEmpty

def isCode (line : ScannedLine) : Bool := !line.isBlank && !line.isComment

def isDecorator (line : ScannedLine) : Bool :=
  !line.startsInTemplate && line.trimmed.head? == some '@'

/-- The line carries code and does not begin inside a template literal. -/
def beginsCode (line : ScannedLine) : Bool := line.isCode && !line.startsInTemplate

def startTop? (line : ScannedLine) : Option Frame := line.startStack.head?

def endTop? (line : ScannedLine) : Option Frame := line.endStack.head?

def isIn (line : ScannedLine) (kind : RegionKind) (position : Nat) : Bool :=
  line.regions.any fun region => region.kind == kind && region.holds position

def isInComment (line : ScannedLine) (position : Nat) : Bool := line.isIn .comment position

def isInTemplate (line : ScannedLine) (position : Nat) : Bool := line.isIn .template position

/-- Character column of a byte position of the line. -/
def column (line : ScannedLine) (position : Nat) : Nat := Text.charColumn line.text position

end ScannedLine

end ScriptLint
