import ScriptLint.Command.Context
import ScriptLint.Command.Output
import ScriptLint.Settings.Resolution

/-!
# Listing the rules

The command lists the rules of the catalogue and tells which of them the configuration switches on.
-/

namespace ScriptLint.Command

def isEnabled (settings : RuleSettings) (rule : Rule) : Bool :=
  match settings.resolve rule.id with
  | .enabled _ => true
  | _ => false

def ruleJson (settings : RuleSettings) (rule : Rule) : Json :=
  .ofMembers [
    ("id", .string rule.id),
    ("description", .string rule.description),
    ("severity", .string rule.severity.name),
    ("enabled", .bool (isEnabled settings rule))]

/-- The text with spaces behind it up to a width. -/
def padded (width : Nat) (text : String) : String :=
  text ++ String.ofList (List.replicate (width - text.length) ' ')

def identifierWidth (rules : List Rule) : Nat :=
  (rules.map fun rule => rule.id.utf8ByteSize).foldl max 0

def ruleLine (appearance : Appearance) (settings : RuleSettings) (width : Nat) (rule : Rule) :
    String :=
  let marker :=
    if isEnabled settings rule then appearance.paint (.colored .green) "●"
    else appearance.paint .dimmed "○"
  marker ++ " " ++ padded width rule.id ++ "  " ++ rule.description ++ " " ++
    appearance.paint .dimmed ("(" ++ rule.severity.name ++ ")")

def sourceLine (appearance : Appearance) (context : Context) : String :=
  match context.path with
  | some path => "Using config " ++ appearance.paint (.colored .cyan) (String.ofList path)
  | none => appearance.paint .dimmed "No config file found, using built-in defaults"

def listing (appearance : Appearance) (context : Context) : List String :=
  let rules := Registry.builtin.rules
  let settings := context.configuration.rules
  match appearance.format with
  | .json => [(Json.array (rules.map (ruleJson settings))).spread 0]
  | .human | .github =>
      sourceLine appearance context :: "" ::
        rules.map (ruleLine appearance settings (identifierWidth rules))

def rules (surroundings : Surroundings) (appearance : Appearance)
    (configPath : Option (List Char)) : Outcome :=
  match Context.load surroundings configPath with
  | .ok context => { output := listing appearance context }
  | .error failure =>
      { errors := [appearance.errorLine failure.message], status := .configurationFailure }

end ScriptLint.Command
