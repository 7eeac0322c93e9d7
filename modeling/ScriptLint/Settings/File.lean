import ScriptLint.FileTree
import ScriptLint.Glob.Filter
import ScriptLint.Json.Parser
import ScriptLint.Settings.Warning
import ScriptLint.Yaml.Document

/-!
# Configuration files

The name of a configuration file tells its format. A blank file holds the default configuration. A
file that is loaded has a configuration whose patterns can be compiled, and the warnings about it.
-/

namespace ScriptLint

inductive ConfigurationFormat where
  | yaml
  | json
  /-- YAML, or JSON if it is not YAML. -/
  | yamlOrJson
  deriving DecidableEq, Repr

inductive ConfigurationFault where
  | yaml
  | json (refusal : String)
  | shape (mismatch : Json.Mismatch)
  deriving Repr

inductive ConfigurationError where
  | unreadable (error : FileError)
  | malformed (path : List Char) (fault : ConfigurationFault)
  | unsupportedFormat (path : List Char)
  | invalidPattern (invalid : InvalidPattern)
  deriving Repr

def ConfigurationFault.message : ConfigurationFault → String
  | yaml => "YAML parse error"
  | json refusal => "JSON parse error: " ++ refusal
  | shape mismatch => mismatch.message

def InvalidPattern.message (invalid : InvalidPattern) : String :=
  "invalid glob pattern '" ++ invalid.pattern ++ "': " ++ invalid.fault.message

def ConfigurationError.message : ConfigurationError → String
  | unreadable error => "failed to read config file: " ++ error.message
  | malformed path fault =>
      "invalid config in " ++ String.ofList path ++ ": " ++ fault.message
  | unsupportedFormat path => "unsupported config file format: " ++ String.ofList path
  | invalidPattern invalid => invalid.message

/-- A configuration that was loaded, with the warnings about it. -/
structure LoadedConfiguration where
  configuration : Configuration
  warnings : List SettingsWarning
  deriving Repr

namespace Configuration

def bareFileName : List Char := ".tslintrc".toList

/-- The format of a configuration file, by its path. -/
def formatOf? (path : List Char) : Option ConfigurationFormat :=
  match String.ofList ((Path.extension? path).getD []) with
  | "yml" | "yaml" => some .yaml
  | "json" => some .json
  | "" => if Path.fileName? path = some bareFileName then some .yamlOrJson else none
  | _ => none

def parseYaml (contents : String) : Except ConfigurationFault Json :=
  match Yaml.parse? contents with
  | some value => .ok value
  | none => .error .yaml

def parseJson (contents : String) : Except ConfigurationFault Json :=
  (Json.parse contents).mapError .json

/-- Reads the contents of a file as a value. Blank contents are null. -/
def parse (format : ConfigurationFormat) (contents : List Char) : Except ConfigurationFault Json :=
  let text := String.ofList contents
  if Text.isBlank contents then .ok .null
  else
    match format with
    | .yaml => parseYaml text
    | .json => parseJson text
    | .yamlOrJson =>
        match parseYaml text with
        | .ok value => .ok value
        | .error _ => parseJson text

def filter (configuration : Configuration) : Except InvalidPattern FileFilter :=
  FileFilter.ofPatterns configuration.included configuration.excluded

/-- Loads a configuration from the contents of a file. The path tells the format. -/
def load (path contents : List Char) : Except ConfigurationError LoadedConfiguration := do
  match formatOf? path with
  | none => .error (.unsupportedFormat path)
  | some format =>
      let value ← (parse format contents).mapError (.malformed path)
      let warnings := Registry.builtin.warnings value
      let configuration ← (ofJson value).mapError fun mismatch => .malformed path (.shape mismatch)
      let _ ← configuration.filter.mapError .invalidPattern
      .ok { configuration, warnings }

def loadFile (position : FileTree.Position) (path : List Char) :
    Except ConfigurationError LoadedConfiguration := do
  load path (← (position.read path).mapError .unreadable)

end Configuration

end ScriptLint
