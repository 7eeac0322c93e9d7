import ScriptLint.Rule.Basic

/-!
# Trailing commas

Requires a comma behind every member of an object literal or enumeration that another member
follows.
-/

namespace ScriptLint.TrailingComma

def info : RuleInfo where
  id := "trailingComma"
  description := "Requires object literal and enum members to end with a comma"

/-- Characters that leave a member unfinished at the end of a line. -/
def continuationEndings : List Char :=
  [',', '\x7b', '[', '(', '+', '-', '*', '/', '%', '=', '?', ':', '&', '|', '<', '>', '.', '!',
    '^', '~']

/-- Whether a line ends a member directly inside an object literal or enumeration. A line that opens
a literal has no member of it to end. -/
def endsMember (line : ScannedLine) : Bool :=
  line.endTop?.any (fun frame => frame.opens .object || frame.opens .enumeration) &&
    line.endStack.length ≤ line.startStack.length &&
    !(line.endStack.length == line.startStack.length && line.startTop? != line.endTop?) &&
    !line.trimmed.getLast?.any continuationEndings.contains

/-- Whether the next line of code begins another member. -/
def isFollowedByMember (next : Option ScannedLine) : Bool :=
  match next with
  | some line =>
      !Text.beginsWith "\x7d" line.trimmed && !startsWithContinuation line.trimmed
  | none => false

/-- The issue for a line, if it ends a member without a comma and another member follows. -/
def issueOfLine? (placed : PlacedLine) : Option Issue :=
  let line := placed.line
  if line.beginsCode && !line.isDecorator && endsMember line &&
      isFollowedByMember placed.nextCode? then
    some (info.issue placed.index (line.column (Text.byteLength (Text.trimEnd line.code))) 1
      "Object and enum members should end with a comma")
  else none

def issues (document : Document) : List Issue := document.placedLines.filterMap issueOfLine?

def rule : Rule where
  toRuleInfo := info
  check document _ := .ok (issues document)

end ScriptLint.TrailingComma
