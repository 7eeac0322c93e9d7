import ScriptLint.Json.Shape
import ScriptLint.Json.Printer

/-!
# Settings

A setting is the value that a configuration gives to one key. Every JSON value is a setting: it is
read as a truth value, a number, a text or an indentation record, the first that fits, and otherwise
kept as it is. The settings of a configuration are kept sorted by key.
-/

namespace ScriptLint

inductive IndentWidth where
  | width (value : Binary64)
  | flag (value : Bool)
  deriving DecidableEq, Repr

structure IndentRecord where
  size : IndentWidth
  useSpaces : Option Bool
  deriving DecidableEq, Repr

/-- The value of one key of a configuration. -/
inductive Setting where
  | bool (value : Bool)
  | number (value : Binary64)
  | text (value : String)
  | indent (record : IndentRecord)
  /-- Any other value. No rule accepts one. -/
  | other (value : Json)
  deriving Repr

def IndentWidth.ofJson? : Json → Option IndentWidth
  | .number value => some (width value.toBinary64)
  | .bool value => some (flag value)
  | _ => none

def IndentWidth.toJson : IndentWidth → Json
  | width value => .number (.real value)
  | flag value => .bool value

namespace IndentRecord

/-- Reads whether spaces are used; null says nothing. -/
def readUseSpaces? : Option Json → Option (Option Bool)
  | none | some .null => some none
  | some (.bool value) => some (some value)
  | some _ => none

/-- Reads a record from its two fields. The size has to be there. -/
def ofFields? (size useSpaces : Option Json) : Option IndentRecord := do
  some { size := ← IndentWidth.ofJson? (← size), useSpaces := ← readUseSpaces? useSpaces }

/-- Reads a record that is written as an object, whose other members are ignored, or as an array of
one or two fields. -/
def ofJson? : Json → Option IndentRecord
  | .object members =>
      ofFields? (Keyed.find? members "indentSize") (Keyed.find? members "useSpaces")
  | .array [size] => ofFields? (some size) none
  | .array [size, useSpaces] => ofFields? (some size) (some useSpaces)
  | _ => none

def toJson (record : IndentRecord) : Json :=
  .object (("indentSize", record.size.toJson) ::
    (record.useSpaces.map fun value => ("useSpaces", Json.bool value)).toList)

end IndentRecord

namespace Setting

/-- Reads a setting: the first kind that fits. -/
def ofJson (value : Json) : Setting :=
  match value with
  | .bool value => bool value
  | .number value => number value.toBinary64
  | .string value => text value
  | _ =>
      match IndentRecord.ofJson? value with
      | some record => indent record
      | none => other value

def toJson : Setting → Json
  | bool value => .bool value
  | number value => .number (.real value)
  | text value => .string value
  | indent record => record.toJson
  | other value => value

/-- Whether the setting switches a rule off. -/
def isOff : Setting → Bool
  | bool false => true
  | _ => false

end Setting

/-- The settings of a configuration, sorted by key. -/
structure RuleSettings where
  entries : List (String × Setting) := []
  deriving Repr

namespace RuleSettings

def insert (settings : RuleSettings) (key : String) (value : Setting) : RuleSettings :=
  ⟨Keyed.insert key value settings.entries⟩

def get? (settings : RuleSettings) (key : String) : Option Setting :=
  Keyed.find? settings.entries key

def keys (settings : RuleSettings) : List String := Keyed.keys settings.entries

def size (settings : RuleSettings) : Nat := settings.entries.length

/-- The settings with these values put in one after the other. -/
def ofList (pairs : List (String × Setting)) : RuleSettings := ⟨Keyed.ofList pairs⟩

def ofMembers (members : List (String × Json)) : RuleSettings :=
  ofList (members.map fun member => (member.1, Setting.ofJson member.2))

def ofJson (value : Json) : Json.Shaped RuleSettings := (Json.asMembers value).map ofMembers

def toJson (settings : RuleSettings) : Json :=
  .object (settings.entries.map fun entry => (entry.1, entry.2.toJson))

end RuleSettings

end ScriptLint
