import ScriptLint.Settings.Configuration
import ScriptLint.Registry
import ScriptLint.Text.Similarity

/-!
# Warnings about a configuration

A key that nothing reads is not an error. It is reported as a warning, with the known name most
similar to it if one is similar enough.
-/

namespace ScriptLint

/-- A key that has no effect, with the name that may have been meant. -/
inductive SettingsWarning where
  | unknownKey (name : String) (suggestion : Option String)
  | unknownRule (name : String) (suggestion : Option String)
  deriving DecidableEq, Repr

namespace SettingsWarning

def code : SettingsWarning → String
  | unknownKey _ _ => "unknown-key"
  | unknownRule _ _ => "unknown-rule"

def name : SettingsWarning → String
  | unknownKey name _ => name
  | unknownRule name _ => name

def suggestion? : SettingsWarning → Option String
  | unknownKey _ suggestion => suggestion
  | unknownRule _ suggestion => suggestion

/-- What the key was taken for. -/
def subject : SettingsWarning → String
  | unknownKey _ _ => "config key"
  | unknownRule _ _ => "rule"

def message (warning : SettingsWarning) : String :=
  let start := "Unknown " ++ warning.subject ++ " '" ++ warning.name ++ "'"
  match warning.suggestion? with
  | some candidate => start ++ ". Did you mean '" ++ candidate ++ "'?"
  | none => start

end SettingsWarning

/-- The least similarity of a name that is suggested. -/
def suggestionThreshold : Float := 0.8

def suggestion? (name : String) (candidates : List String) : Option String :=
  Text.mostSimilar? suggestionThreshold name candidates

/-- Keys of rule settings that are not the identifier of a rule of their own. -/
def indentKeys : List String := ["indent", "indentSize", "useSpaces"]

def Registry.knownKeys (registry : Registry) : List String := registry.ids ++ indentKeys

def fieldWarnings (members : List (String × Json)) : List SettingsWarning :=
  ((Keyed.keys members).filter fun key => !Configuration.fieldNames.contains key).map fun key =>
    .unknownKey key (suggestion? key Configuration.fieldNames)

def Registry.ruleWarnings (registry : Registry) (members : List (String × Json)) :
    List SettingsWarning :=
  ((Keyed.keys members).filter fun key => !registry.knownKeys.contains key).map fun key =>
    .unknownRule key (suggestion? key registry.knownKeys)

/-- The warnings for a configuration as written: first for its own keys, then for those of its rule
settings. -/
def Registry.warnings (registry : Registry) (value : Json) : List SettingsWarning :=
  match Configuration.bareMembers? value, value with
  | some members, _ => registry.ruleWarnings members
  | none, .object members =>
      let rules :=
        match Keyed.find? members "rules" with
        | some (.object rules) => registry.ruleWarnings rules
        | _ => []
      fieldWarnings members ++ rules
  | none, _ => []

end ScriptLint
