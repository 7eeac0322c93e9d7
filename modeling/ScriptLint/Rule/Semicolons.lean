import ScriptLint.Rule.Basic

/-!
# Semicolons

Requires or forbids a semicolon at the end of statements. A line ends a statement if it leaves no
expression open, does not begin with a keyword of its own, ends with no operator, and is not
continued by the next line of code. A line that closes an expression begun above it counts, unless
that was the condition of a control keyword.
-/

namespace ScriptLint.Semicolons

open Text Text.Pattern

def info : RuleInfo where
  id := "semicolons"
  description := "Requires or forbids semicolons at the end of statements"

def exemptWords : List String :=
  ["if", "else", "for", "while", "do", "switch", "case", "default", "try", "catch", "finally",
    "function", "class", "interface", "enum", "namespace", "module", "import", "export", "type",
    "abstract", "declare"]

/-- A word at the start of a line that needs no semicolon. -/
def exemptStart : Pattern :=
  inOrder [atStart,
    firstOf [wordOf exemptWords, inOrder [literal "async", gap, literal "function"]],
    atWordEdge]

/-- Operators that leave an expression open at the end of a line. -/
def trailingOperators : List String :=
  ["=>", "&&", "||", "??", "+", "-", "*", "/", "%", "=", "&", "|", "^", "!", "?", ",", ".", "(",
    "["]

/-- Whether code ends with an operator that has no right side yet. -/
def endsWithOperator (code : List Char) : Bool :=
  !(endsIn "++" code || endsIn "--" code) && trailingOperators.any (endsIn · code)

/-- Whether a line begins or ends in a way that needs no semicolon. -/
def isExempt (code : List Char) : Bool :=
  exemptStart.occursIn code || endsIn "\x7b" code || endsIn "\x7d" code || endsIn ":" code

/-- Whether a line closes every expression that is open at its start and leaves none open, the
condition of a control keyword not among those it closes. -/
def closesExpression (line : ScannedLine) : Bool :=
  let startsInside := line.startTop?.any Frame.isExpression
  let endsInside := line.endTop?.any Frame.isExpression
  if startsInside then
    let closed := line.startStack.take (line.startStack.length - line.endStack.length)
    !endsInside && line.endStack.length < line.startStack.length &&
      !closed.contains (.paren true)
  else !endsInside

/-- Whether the next line of code, if there is one, begins a statement of its own. -/
def isFollowedByStart (next : Option ScannedLine) : Bool :=
  match next with
  | some line => !line.startsInTemplate && !startsWithContinuation line.trimmed
  | none => true

/-- Whether a line ends a statement that is checked. -/
def endsStatement (placed : PlacedLine) : Bool :=
  let line := placed.line
  line.beginsCode && !line.isDecorator && !isExempt line.trimmed && closesExpression line &&
    !endsWithOperator line.trimmed && isFollowedByStart placed.nextCode?

/-- The issue for a line, if it ends a statement in the wrong way. -/
def issueOfLine? (style : SemicolonStyle) (placed : PlacedLine) : Option Issue :=
  if endsStatement placed then
    let line := placed.line
    let code := trimEnd line.code
    let size := byteLength code
    match style, endsIn ";" code with
    | .required, false =>
        some (info.issue placed.index (line.column size) 0 "Missing semicolon at end of statement")
    | .forbidden, true =>
        some (info.issue placed.index (line.column (size - 1)) 1
          "Unnecessary semicolon at end of statement")
    | _, _ => none
  else none

def issues (style : SemicolonStyle) (document : Document) : List Issue :=
  document.placedLines.filterMap (issueOfLine? style)

def rule : Rule where
  toRuleInfo := info
  check document options := do
    let style ← options.semicolons? info.id
    .ok (issues style document)

end ScriptLint.Semicolons
