import ScriptLint.Glob.Match
import ScriptLint.Path

/-!
# File filters

A file filter takes a path that matches one of the patterns to include and none of those to exclude.
Paths are relative and are compared without a leading `./` and with slashes for backslashes.
-/

namespace ScriptLint

structure FileFilter where
  included : List Glob.Pattern
  excluded : List Glob.Pattern
  deriving DecidableEq, Repr

structure InvalidPattern where
  pattern : String
  fault : Glob.Fault
  deriving DecidableEq, Repr

namespace FileFilter

/-- A pattern as it is compared: without white space at its ends and without a leading `./`. -/
def normalize (pattern : String) : List Char := Path.dropCurrent (Text.trim pattern.toList)

def compile (patterns : List String) : Except InvalidPattern (List Glob.Pattern) :=
  patterns.mapM fun pattern =>
    (Glob.Pattern.ofText (normalize pattern)).mapError fun refusal => ⟨pattern, refusal.fault⟩

def ofPatterns (included excluded : List String) : Except InvalidPattern FileFilter := do
  .ok { included := ← compile included, excluded := ← compile excluded }

def comparable (path : List Char) : List Char :=
  Path.dropCurrent (path.map fun letter => if letter = '\\' then '/' else letter)

/-- Whether a relative path is included and not excluded. -/
def accepts (filter : FileFilter) (path : List Char) : Bool :=
  let path := comparable path
  filter.included.any (·.accepts path) && !filter.excluded.any (·.accepts path)

end FileFilter

end ScriptLint
