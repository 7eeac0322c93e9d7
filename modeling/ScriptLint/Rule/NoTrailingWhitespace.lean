import ScriptLint.Rule.Basic

/-!
# Trailing white space

Reports spaces and tabs at the end of lines that have other characters. White space inside a
template literal is content and stays.
-/

namespace ScriptLint.NoTrailingWhitespace

def info : RuleInfo where
  id := "noTrailingWhitespace"
  description := "Disallows trailing spaces and tabs"

/-- The line without the spaces and tabs at its end. -/
def content (line : List Char) : List Char :=
  Text.dropEndWhile (fun letter => letter == ' ' || letter == '\t') line

/-- The issue for a line, if it ends with spaces or tabs. -/
def issueOfLine? (index : Nat) (line : ScannedLine) : Option Issue :=
  let kept := content line.text
  let size := Text.byteLength kept
  if line.isBlank || kept.length == line.text.length || line.isInTemplate size then none
  else
    some (info.issue index (line.column size) (line.text.length - kept.length)
      "Trailing whitespace")

def issues (document : Document) : List Issue :=
  document.scan.zipIdx.filterMap fun entry => issueOfLine? entry.2 entry.1

def rule : Rule where
  toRuleInfo := info
  check document _ := .ok (issues document)

end ScriptLint.NoTrailingWhitespace
