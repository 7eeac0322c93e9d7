import ScriptLint.Json.Shape
import ScriptLint.Json.Printer

/-!
# Issues

An issue is what a rule reports: a place in a document, a length, and what is wrong there. An issue
without a length extends to the end of its line.
-/

namespace ScriptLint

inductive Severity where
  | error
  | warning
  | info
  | hint
  deriving DecidableEq, Repr, Inhabited

namespace Severity

def name : Severity → String
  | error => "error"
  | warning => "warning"
  | info => "info"
  | hint => "hint"

/-- All severities, the most severe first. -/
def all : List Severity := [error, warning, info, hint]

def ofName? (text : String) : Option Severity := all.find? fun severity => severity.name == text

end Severity

/-- An issue. Line and character are counted from zero, lengths in characters. -/
structure Issue where
  line : Nat
  character : Nat
  /-- The length, or none for the rest of the line. -/
  length : Option Nat
  message : String
  severity : Severity
  ruleId : String
  deriving DecidableEq, Repr, Inhabited

namespace Issue

/-- The length of an issue on the given line. -/
def resolvedLength (issue : Issue) (line : List Char) : Nat :=
  issue.length.getD (line.length - issue.character)

/-- Whether an issue stands at or before the place of another. -/
def notAfter (first second : Issue) : Bool :=
  first.line < second.line ||
    (first.line == second.line && first.character ≤ second.character)

/-- The issues in ascending order of their places; issues of one place keep their order. -/
def sorted (issues : List Issue) : List Issue := issues.mergeSort notAfter

/-- One line of text for an issue, counted from one. -/
def summary (issue : Issue) : String :=
  let length := match issue.length with
    | some length => toString length
    | none => "eol"
  let line := issue.line + 1
  let character := issue.character + 1
  let severity := issue.severity.name
  s!"{line}:{character}+{length} {severity} [{issue.ruleId}] {issue.message}"

def summaries (issues : List Issue) : String :=
  if issues.isEmpty then "(no issues)" else "\n".intercalate (issues.map summary)

/-! ## Issues as JSON -/

def toJson (issue : Issue) : Json :=
  .object <|
    [("line", .nat issue.line), ("character", .nat issue.character)] ++
      (issue.length.map fun length => ("length", Json.nat length)).toList ++
      [("message", .string issue.message), ("severity", .string issue.severity.name),
        ("ruleId", .string issue.ruleId)]

/-- Reads a severity: its name, or an object with the name as its only member and null as the
value. -/
def asSeverity : Json → Json.Shaped Severity
  | .string text => ofText text
  | .object [(text, value)] => do
      let severity ← ofText text
      match value with
      | .null => .ok severity
      | found => .error (.wrongType found "unit")
  | found@(.object _) => .error (.wrongValue found "map with a single key")
  | found => .error (.wrongType found "string or map")
where
  ofText (text : String) : Json.Shaped Severity :=
    match Severity.ofName? text with
    | some severity => .ok severity
    | none => .error (.unknownVariant text (Severity.all.map Severity.name))

def recordName : String := "struct LintIssue"

/-- Reads an issue from the members of an object. They are checked in the order of their names, and
then the fields that have to be there in the order of the record. -/
def ofMembers (members : List (String × Json)) : Json.Shaped Issue := do
  let character ← Json.readMember members "character" Json.asNatural
  let length ← Json.readMember members "length" (Json.asOptional Json.asNatural)
  let line ← Json.readMember members "line" Json.asNatural
  let message ← Json.readMember members "message" Json.asText
  let ruleId ← Json.readMember members "ruleId" Json.asText
  let severity ← Json.readMember members "severity" asSeverity
  let line ← Json.require "line" line
  let character ← Json.require "character" character
  let message ← Json.require "message" message
  let severity ← Json.require "severity" severity
  let ruleId ← Json.require "ruleId" ruleId
  .ok { line, character, length := length.join, message, severity, ruleId }

def ofElements (elements : List Json) : Json.Shaped Issue := do
  let expected := recordName ++ " with 6 elements"
  let line ← Json.requireField 0 expected (← Json.readField elements 0 Json.asNatural)
  let character ← Json.requireField 1 expected (← Json.readField elements 1 Json.asNatural)
  let length ← Json.readField elements 2 (Json.asOptional Json.asNatural)
  let message ← Json.requireField 3 expected (← Json.readField elements 3 Json.asText)
  let severity ← Json.requireField 4 expected (← Json.readField elements 4 asSeverity)
  let ruleId ← Json.requireField 5 expected (← Json.readField elements 5 Json.asText)
  Json.endOfRecord elements 6
  .ok { line, character, length := length.join, message, severity, ruleId }

def ofJson : Json → Json.Shaped Issue
  | .object members => ofMembers members
  | .array elements => ofElements elements
  | found => .error (.wrongType found recordName)

end Issue

end ScriptLint
