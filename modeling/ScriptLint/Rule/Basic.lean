import ScriptLint.Rule.Options
import ScriptLint.Issue
import ScriptLint.Source.Scanner

/-!
# Rules

A rule has an identifier, a description, a severity, and a check that turns a document and options
into issues. A check never raises an exception: a refusal and a breakdown are values, and arithmetic
that has no result, such as a span that ends before it starts, is a breakdown.
-/

namespace ScriptLint

structure RuleInfo where
  id : String
  description : String
  severity : Severity := .warning
  deriving DecidableEq, Repr

structure Rule extends RuleInfo where
  check : Document → RuleOptions → Except Failure (List Issue)

def RuleInfo.issue (info : RuleInfo) (line character length : Nat) (message : String) : Issue :=
  { line, character, length := some length, message, severity := info.severity, ruleId := info.id }

/-- An issue of a rule that extends to the end of the line. -/
def RuleInfo.openIssue (info : RuleInfo) (line character : Nat) (message : String) : Issue :=
  { line, character, length := none, message, severity := info.severity, ruleId := info.id }

/-- The length of a span between two columns, which must not end before it starts. -/
def spanLength (start stop : Nat) : Except Failure Nat :=
  if start ≤ stop then .ok (stop - start)
  else .error (.crashed (some "attempt to subtract with overflow"))

/-- The remainder of a division, whose divisor must not be zero. -/
def remainder (dividend divisor : Nat) : Except Failure Nat :=
  if divisor = 0 then
    .error (.crashed (some "attempt to calculate the remainder with a divisor of zero"))
  else .ok (dividend % divisor)

/-- A scanned line with its number and the lines below it. -/
structure PlacedLine where
  index : Nat
  line : ScannedLine
  following : List ScannedLine
  deriving DecidableEq, Repr

namespace PlacedLine

/-- Lines with their numbers, which begin with the given one, and with the lines below them. -/
def ofLines (index : Nat) : List ScannedLine → List PlacedLine
  | [] => []
  | line :: following => ⟨index, line, following⟩ :: ofLines (index + 1) following

/-- The next line below that carries code. -/
def nextCode? (placed : PlacedLine) : Option ScannedLine :=
  placed.following.find? ScannedLine.isCode

end PlacedLine

def Document.placedLines (document : Document) : List PlacedLine :=
  PlacedLine.ofLines 0 document.scan

/-- Marks with which a line continues the expression of the line above. -/
def leadingContinuations : List String :=
  [".", "?", ":", "&&", "||", "??", "+", "-", "*", "/", "%", "=", "|", "&", "^", ",", "\x7b"]

/-- Marks with which a line begins an expression of its own, although they begin like a
continuation. -/
def leadingOperators : List String := ["++", "--", "..."]

def startsWithContinuation (code : List Char) : Bool :=
  !leadingOperators.any (Text.beginsWith · code) &&
    leadingContinuations.any (Text.beginsWith · code)

/-- What a rule says about a match: where the reported span begins, its length in bytes and the
message. -/
structure Finding where
  start : Nat
  size : Nat
  message : String

/-- The issue for a match in the code of a line, unless the match is not reported or begins inside a
template literal. -/
def RuleInfo.issueOfMatch? (info : RuleInfo) (report : Text.Match → Option Finding) (index : Nat)
    (line : ScannedLine) (found : Text.Match) : Except Failure (Option Issue) :=
  match report found with
  | none => .ok none
  | some finding =>
      if line.isInTemplate finding.start then .ok none
      else do
        let character := line.column finding.start
        let length ← spanLength character (line.column (finding.start + finding.size))
        .ok (some (info.issue index character length finding.message))

/-- The issues for the matches of a pattern in the code of the lines, template literals left out.
Comments need no test, because they are blank in the code. -/
def RuleInfo.reportMatches (info : RuleInfo) (pattern : Text.Pattern)
    (report : Text.Match → Option Finding) (document : Document) :
    Except Failure (List Issue) := do
  let issues ← document.scan.zipIdx.mapM fun entry =>
    if entry.1.isCode then do
      let found ← (pattern.searchAll entry.1.code).mapM
        (info.issueOfMatch? report entry.2 entry.1)
      .ok (found.filterMap fun issue => issue)
    else .ok []
  .ok (Issue.sorted issues.flatten)

end ScriptLint
