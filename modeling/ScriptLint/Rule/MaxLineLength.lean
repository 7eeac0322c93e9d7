import ScriptLint.Rule.Basic
import ScriptLint.Comment

/-!
# Line length

Reports every line longer than the limit, unless it looks like a comment.
-/

namespace ScriptLint.MaxLineLength

def info : RuleInfo where
  id := "maxLineLength"
  description := "Limits the number of characters on a code line"

/-- The issue for a line, if it is too long. It covers what goes beyond the limit. -/
def issueOfLine? (limit index : Nat) (line : List Char) : Option Issue :=
  let length := line.length
  if !Comment.isCommentLine line && limit < length then
    some (info.issue index limit (length - limit)
      s!"Line is {length} characters long, exceeding the limit of {limit}")
  else none

def issues (limit : Nat) (document : Document) : List Issue :=
  document.lines.zipIdx.filterMap fun entry => issueOfLine? limit entry.2 entry.1

def rule : Rule where
  toRuleInfo := info
  check document options := do
    let limit ← options.threshold? info.id
    .ok (issues limit document)

end ScriptLint.MaxLineLength
