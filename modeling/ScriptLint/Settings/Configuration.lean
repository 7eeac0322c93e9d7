import ScriptLint.Settings.Value

/-!
# Configurations

A configuration holds the settings of the rules, the patterns of the files to check and not to
check, and a size limit. It is written either in full, as an object with at least one of four fields
or as an array of them in order, or as a bare object of rule settings. What a full configuration
leaves out has a default; settings that are given replace the default ones altogether.
-/

namespace ScriptLint

/-- What governs a run: rule settings, file patterns and a size limit in bytes. -/
structure Configuration where
  rules : RuleSettings
  included : List String
  excluded : List String
  maxFileSize : Option Nat
  deriving Repr

namespace Configuration

/-- The patterns of the files that are checked by default. -/
def defaultIncluded : List String := ["**/*.ts", "**/*.tsx"]

/-- The patterns of the paths that are passed over by default. -/
def defaultExcluded : List String := ["**/node_modules/**"]

/-- The rules that are switched on by default and have nothing to choose. -/
def defaultSwitches : List String :=
  ["noConsole", "noVar", "noAny", "noEmptyFunctions", "noTrailingWhitespace", "namingConvention",
    "functionEmptyLine", "arrayCopy", "trailingComma"]

def numeric (value : Nat) : Setting := .number (.ofNat false value)

def defaultRules : RuleSettings :=
  .ofList <|
    [("maxLineLength", numeric 120), ("indentSize", numeric 4), ("useSpaces", .bool true),
      ("semicolons", .bool true), ("quotes", .text "single"),
      ("ueNamingConvention", .bool false)] ++
      defaultSwitches.map fun id => (id, .bool true)

def default : Configuration where
  rules := defaultRules
  included := defaultIncluded
  excluded := defaultExcluded
  maxFileSize := none

def fieldNames : List String := ["rules", "include", "exclude", "maxFileSize"]

/-- The members of a bare object of rule settings: an object with members, none of them a field of a
full configuration. -/
def bareMembers? : Json → Option (List (String × Json))
  | .object members =>
      if members.isEmpty || members.any (fun member => fieldNames.contains member.1) then none
      else some members
  | _ => none

def isBare (value : Json) : Bool := (bareMembers? value).isSome

def asPatterns : Json → Json.Shaped (List String) := Json.asList Json.asText

def asLimit : Json → Json.Shaped (Option Nat) := Json.asOptional Json.asNatural

/-- A configuration from the fields that are given. -/
def ofFields (rules : Option RuleSettings) (included excluded : Option (List String))
    (limit : Option (Option Nat)) : Configuration where
  rules := rules.getD defaultRules
  included := included.getD defaultIncluded
  excluded := excluded.getD defaultExcluded
  maxFileSize := limit.join

/-- Reads a full configuration from the members of an object, in the order of their names. -/
def ofMembers (members : List (String × Json)) : Json.Shaped Configuration := do
  let excluded ← Json.readMember members "exclude" asPatterns
  let included ← Json.readMember members "include" asPatterns
  let limit ← Json.readMember members "maxFileSize" asLimit
  let rules ← Json.readMember members "rules" RuleSettings.ofJson
  .ok (ofFields rules included excluded limit)

def ofElements (elements : List Json) : Json.Shaped Configuration := do
  let rules ← Json.readField elements 0 RuleSettings.ofJson
  let included ← Json.readField elements 1 asPatterns
  let excluded ← Json.readField elements 2 asPatterns
  let limit ← Json.readField elements 3 asLimit
  Json.endOfRecord elements fieldNames.length
  .ok (ofFields rules included excluded limit)

/-- Reads a configuration. Null is the default one. -/
def ofJson (value : Json) : Json.Shaped Configuration :=
  match bareMembers? value with
  | some members => .ok { default with rules := .ofMembers members }
  | none =>
      match value with
      | .null => .ok default
      | .object members => ofMembers members
      | .array elements => ofElements elements
      | found => .error (.wrongType found "struct TslintConfig")

def toJson (configuration : Configuration) : Json :=
  .object <|
    [("rules", configuration.rules.toJson),
      ("include", .array (configuration.included.map Json.string)),
      ("exclude", .array (configuration.excluded.map Json.string))] ++
      (configuration.maxFileSize.map fun limit => ("maxFileSize", Json.nat limit)).toList

end Configuration

end ScriptLint
