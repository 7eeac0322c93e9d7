import ScriptLint.Rule.Basic

/-!
# Console calls

Reports calls of the logging functions of the console.
-/

namespace ScriptLint.NoConsole

open Text Text.Pattern

def info : RuleInfo where
  id := "noConsole"
  description := "Disallows console logging calls"

/-- A logging function of the console, its name in group 1. -/
def consoleCall : Pattern :=
  inOrder [atWordEdge, literal "console.",
    group 1 (wordOf ["log", "warn", "error", "info", "debug"]), atWordEdge]

/-- What is reported of a call: all of it. -/
def report (found : Match) : Option Finding :=
  (found.group? 1).map fun span =>
    ⟨found.whole.start, found.whole.size,
      "Unexpected console." ++ String.ofList span.letters ++ " call"⟩

def rule : Rule where
  toRuleInfo := info
  check document _ := info.reportMatches consoleCall report document

end ScriptLint.NoConsole
