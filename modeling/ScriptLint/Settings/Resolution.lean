import ScriptLint.Settings.Value
import ScriptLint.Rule.Options

/-!
# From settings to options

The fixed table that turns the settings of a configuration into the options of one rule. A rule is
off when its key is missing or false. The rule `indent` alone reads more than its own key: without
one, it takes its width from `indentSize` and its character from `useSpaces`.
-/

namespace ScriptLint

inductive SettingFault where
  | unexpected (expected : String) (found : Setting)
  | indentSize (found : IndentWidth)
  deriving Repr

def SettingFault.message : SettingFault → String
  | unexpected expected found => "expected " ++ expected ++ ", found " ++ found.toJson.compact
  | indentSize (.width value) => "expected a positive indentSize, found " ++ value.plainText
  | indentSize (.flag value) =>
      "expected a positive indentSize, found " ++ (if value then "true" else "false")

inductive Resolution where
  /-- The rule is absent, switched off, or has no limit. -/
  | disabled
  | enabled (options : RuleOptions)
  /-- The setting is there but not one that the rule accepts. -/
  | malformed (fault : SettingFault)
  deriving Repr

namespace Resolution

/-- The greatest value of a limit. -/
def greatestLimit : Nat := Nat.pow 2 64 - 1

/-- A positive number as a limit: rounded down, and at most the greatest limit. -/
def limitOf (value : Binary64) : Nat := min value.floorMagnitude greatestLimit

/-- The options of an indentation. A width has to be one or more. -/
def ofIndent (size : IndentWidth) (useSpaces : Option Bool) : Resolution :=
  match size with
  | .flag false => disabled
  | .flag true => malformed (.indentSize size)
  | .width value =>
      if value.isAtLeastOne then
        enabled (.indent { size := limitOf value, useSpaces := useSpaces.getD true })
      else malformed (.indentSize size)

/-- The options of an indentation whose width stands in a setting of its own. -/
def ofIndentSize (size : Setting) (useSpaces : Option Bool) : Resolution :=
  match size with
  | .number value => ofIndent (.width value) useSpaces
  | .bool value => ofIndent (.flag value) useSpaces
  | found => malformed (.unexpected "a numeric indentSize" found)

def ofIndentSettings (settings : RuleSettings) : Resolution :=
  match settings.get? "indent" with
  | some (.bool false) => disabled
  | some (.indent record) => ofIndent record.size record.useSpaces
  | some (.number value) => ofIndent (.width value) (some true)
  | some found => malformed (.unexpected "an indent record or a number" found)
  | none =>
      match settings.get? "indentSize" with
      | none => disabled
      | some size =>
          match settings.get? "useSpaces" with
          | none => ofIndentSize size none
          | some (.bool useSpaces) => ofIndentSize size (some useSpaces)
          | some found => malformed (.unexpected "a boolean useSpaces" found)

def ofLineLength (found : Setting) : Resolution :=
  match found with
  | .number value =>
      if value.isPositive then enabled (.threshold (limitOf value))
      else if value.isNegligible then disabled
      else malformed (.unexpected "a positive number" found)
  | _ => malformed (.unexpected "a positive number" found)

def ofSemicolons (found : Setting) : Resolution :=
  match found with
  | .bool true | .text "always" => enabled (.semicolons .required)
  | .text "never" => enabled (.semicolons .forbidden)
  | _ => malformed (.unexpected "true, \"always\" or \"never\"" found)

def ofQuotes (found : Setting) : Resolution :=
  match found with
  | .text "single" => enabled (.quotes .single)
  | .text "double" => enabled (.quotes .double)
  | _ => malformed (.unexpected "\"single\" or \"double\"" found)

def ofSwitch (found : Setting) : Resolution :=
  match found with
  | .bool true => enabled .enabled
  | _ => malformed (.unexpected "a boolean" found)

/-- What a setting that does not switch the rule off says about it. -/
def ofSetting (ruleId : String) (found : Setting) : Resolution :=
  if ruleId = "maxLineLength" then ofLineLength found
  else if ruleId = "semicolons" then ofSemicolons found
  else if ruleId = "quotes" then ofQuotes found
  else ofSwitch found

end Resolution

/-- What the settings say about the rule with an identifier. -/
def RuleSettings.resolve (settings : RuleSettings) (ruleId : String) : Resolution :=
  if ruleId = "indent" then .ofIndentSettings settings
  else
    match settings.get? ruleId with
    | none => .disabled
    | some found => if found.isOff then .disabled else .ofSetting ruleId found

end ScriptLint
