import ScriptLint.Rule.Basic

/-!
# Untyped annotations

Reports annotations with the type that accepts everything.
-/

namespace ScriptLint.NoAny

open Text Text.Pattern

def info : RuleInfo where
  id := "noAny"
  description := "Disallows explicit any type annotations"

/-- An annotation, its type in group 1. -/
def typeAnnotated : Pattern :=
  inOrder [literal ":", spaces, group 1 (literal "any"), atWordEdge]

/-- What is reported of an annotation: the type. -/
def report (found : Match) : Option Finding :=
  (found.group? 1).map fun span =>
    ⟨span.start, span.size, "Avoid the any type; use a specific type or unknown"⟩

def rule : Rule where
  toRuleInfo := info
  check document _ := info.reportMatches typeAnnotated report document

end ScriptLint.NoAny
