import ScriptLint.Rule.MaxLineLength
import ScriptLint.Rule.Indent
import ScriptLint.Rule.Semicolons
import ScriptLint.Rule.Quotes
import ScriptLint.Rule.NoConsole
import ScriptLint.Rule.NoVar
import ScriptLint.Rule.NoAny
import ScriptLint.Rule.NoEmptyFunctions
import ScriptLint.Rule.NoTrailingWhitespace
import ScriptLint.Rule.NamingConvention
import ScriptLint.Rule.UeNamingConvention
import ScriptLint.Rule.FunctionEmptyLine
import ScriptLint.Rule.ArrayCopy
import ScriptLint.Rule.TrailingComma

/-!
# The registry of rules

A registry lists rules in the order in which their identifiers were first registered. Registering a
rule under an identifier that is taken replaces the rule there, so an identifier occurs once.
-/

namespace ScriptLint

structure Registry where
  rules : List Rule := []

namespace Registry

/-- The rules with one put in the place of its identifier, or at the end. -/
def place (rule : Rule) : List Rule → List Rule
  | [] => [rule]
  | present :: rest =>
      if present.id = rule.id then rule :: rest else present :: place rule rest

def register (registry : Registry) (rule : Rule) : Registry := ⟨place rule registry.rules⟩

def registerAll (registry : Registry) (rules : List Rule) : Registry :=
  rules.foldl register registry

def get? (registry : Registry) (id : String) : Option Rule :=
  registry.rules.find? fun rule => rule.id == id

def has (registry : Registry) (id : String) : Bool := (registry.get? id).isSome

def ids (registry : Registry) : List String := registry.rules.map (·.id)

def summary (registry : Registry) : String :=
  "RuleRegistry \x7b rules: [" ++ ", ".intercalate (registry.ids.map Text.quoted) ++ "] \x7d"

def catalogue : List Rule :=
  [MaxLineLength.rule, Indent.rule, Semicolons.rule, Quotes.rule, NoConsole.rule, NoVar.rule,
    NoAny.rule, NoEmptyFunctions.rule, NoTrailingWhitespace.rule, NamingConvention.rule,
    UeNamingConvention.rule, FunctionEmptyLine.rule, ArrayCopy.rule, TrailingComma.rule]

def builtin : Registry := ({} : Registry).registerAll catalogue

end Registry

end ScriptLint
