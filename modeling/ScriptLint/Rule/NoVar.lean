import ScriptLint.Rule.Basic

/-!
# Old variable declarations

Reports declarations with the keyword that ignores blocks.
-/

namespace ScriptLint.NoVar

open Text Text.Pattern

def info : RuleInfo where
  id := "noVar"
  description := "Requires let or const instead of var"

/-- The keyword with white space behind it. -/
def keyword : Pattern := inOrder [atWordEdge, literal "var", gap]

/-- What is reported of a declaration: the keyword alone. -/
def report (found : Match) : Option Finding :=
  some ⟨found.whole.start, 3, "Use let or const instead of var"⟩

def rule : Rule where
  toRuleInfo := info
  check document _ := info.reportMatches keyword report document

end ScriptLint.NoVar
