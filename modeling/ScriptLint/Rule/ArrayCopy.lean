import ScriptLint.Rule.Basic
import ScriptLint.Comment

/-!
# Array copies

Reports loops that copy an array element by element. A copy shows as four neighbouring lines of
code: an empty array, an index or a length, a counting loop, and the step that copies one element.
After a reported copy the search goes on behind its four lines.
-/

namespace ScriptLint.ArrayCopy

open Text Text.Pattern

def info : RuleInfo where
  id := "arrayCopy"
  description := "Requires the spread operator instead of loop-based array copies"

/-- A line that is no comment, with its code. -/
structure CodeLine where
  index : Nat
  raw : List Char
  code : List Char
  deriving DecidableEq, Repr

/-- The code of a numbered line, if it has any. -/
def CodeLine.of? (index : Nat) (raw : List Char) : Option CodeLine :=
  let code := Comment.code raw
  if isBlank raw || Comment.isCommentLine raw || code.isEmpty then none
  else some { index, raw, code }

def codeLines (document : Document) : List CodeLine :=
  document.lines.zipIdx.filterMap fun entry => CodeLine.of? entry.2 entry.1

/-! ## The four lines -/

/-- A type behind a colon, if there is one. -/
def typeGiven : Pattern := optional (sequence (literal ":") (repeated (noneOf "=")))

/-- An array that is declared empty, its name in group 1. -/
def emptyArray : Pattern :=
  inOrder [atStart, wordOf ["const", "let", "var"], gap, group 1 identifier, spaces, typeGiven,
    literal "=", spaces, literal "[]", spaces, optional (literal ";"), atEnd]

/-- A variable that takes the length of an array, its name in group 1. -/
def lengthVariable : Pattern :=
  inOrder [atStart, wordOf ["const", "let", "var"], gap, group 1 identifier, spaces, typeGiven,
    literal "=", spaces, group 2 identifier, literal ".length", spaces, optional (literal ";"),
    atEnd]

/-- A variable that is declared as an index, its name in group 1. -/
def indexVariable : Pattern :=
  inOrder [atStart, wordOf ["let", "var"], gap, group 1 identifier, spaces,
    optional (inOrder [literal ":", spaces, literal "number", spaces]),
    optional (inOrder [literal "=", spaces, literal "0", spaces]), optional (literal ";"), atEnd]

/-- The head of a counting loop: its index in group 1 and its bound in group 2. -/
def loopHead : Pattern :=
  inOrder [atStart, literal "for", spaces, literal "(", many (noneOf ";"), literal ";", spaces,
    group 1 identifier, spaces, literal "<", spaces, group 2 identifier,
    optional (group 3 (literal ".length")), spaces, literal ";"]

/-- An element set to an element: the arrays in groups 1 and 3, the indices in groups 2 and 4. -/
def indexedStep : Pattern :=
  inOrder [atStart, group 1 identifier, literal "[", group 2 identifier, literal "]", spaces,
    literal "=", spaces, group 3 identifier, literal "[", group 4 identifier, literal "]"]

/-- An element appended: the array in group 1, the index in group 3. -/
def appendStep : Pattern :=
  inOrder [atStart, group 1 identifier, literal ".push(", spaces, group 2 identifier, literal "[",
    group 3 identifier, literal "]", spaces, literal ")"]

/-- The run of a group of a pattern in a text. -/
def captured? (pattern : Pattern) (number : Nat) (code : List Char) : Option (List Char) :=
  ((pattern.search? code).bind (·.group? number)).map (·.letters)

def loopBound? (code : List Char) : Option (List Char × List Char) := do
  let found ← loopHead.search? code
  some ((← found.group? 1).letters, (← found.group? 2).letters)

/-- The array and the index of a step that copies one element. -/
def copyStep? (code : List Char) : Option (List Char × List Char) :=
  match indexedStep.search? code with
  | some found => do
      let target ← found.group? 1
      let targetIndex ← found.group? 2
      let sourceIndex ← found.group? 4
      if targetIndex.letters == sourceIndex.letters then some (target.letters, targetIndex.letters)
      else none
  | none => do
      let found ← appendStep.search? code
      some ((← found.group? 1).letters, (← found.group? 3).letters)

/-! ## Windows -/

/-- Whether four lines are an empty array, an index, a loop over the index and the copying step. -/
def isIndexedCopy (array index head body : List Char) : Bool :=
  match captured? emptyArray 1 array, captured? indexVariable 1 index, loopBound? head,
      copyStep? body with
  | some copy, some counter, some (loopIndex, _), some (target, stepIndex) =>
      loopIndex == counter && stepIndex == counter && target == copy
  | _, _, _, _ => false

/-- Whether four lines are a length, an empty array, a loop up to the length and the copying
step. -/
def isLengthCopy (length array head body : List Char) : Bool :=
  match captured? lengthVariable 1 length, captured? emptyArray 1 array, loopBound? head,
      copyStep? body with
  | some bound, some copy, some (loopIndex, loopEnd), some (target, stepIndex) =>
      loopEnd == bound && stepIndex == loopIndex && target == copy
  | _, _, _, _ => false

/-- The line of a window on which a copy is reported, if the window is one. -/
def reportedLine? (first second third fourth : CodeLine) : Option CodeLine :=
  if isIndexedCopy first.code second.code third.code fourth.code then some first
  else if isLengthCopy first.code second.code third.code fourth.code then some second
  else none

/-- The issue on the line that declares the copy. -/
def issueOf (line : CodeLine) : Issue :=
  info.issue line.index (line.raw.takeWhile isSpace).length line.code.length
    "Copy arrays with the spread operator, e.g. const itemsCopy = [...items];"

/-- The reported lines of the windows, each beginning behind the last reported window. -/
def reportedLines : List CodeLine → List CodeLine
  | first :: second :: third :: fourth :: rest =>
      match reportedLine? first second third fourth with
      | some line => line :: reportedLines rest
      | none => reportedLines (second :: third :: fourth :: rest)
  | _ => []
termination_by lines => lines.length

def issues (document : Document) : List Issue :=
  (reportedLines (codeLines document)).map issueOf

def rule : Rule where
  toRuleInfo := info
  check document _ := .ok (issues document)

end ScriptLint.ArrayCopy
