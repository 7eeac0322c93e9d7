import ScriptLint.Command.Paint
import ScriptLint.Settings.Discovery
import ScriptLint.Settings.File

/-!
# The context of a command

Every command works with a configuration: from the file that is given, or else from the file that
holds for the working directory, or else the default one.
-/

namespace ScriptLint.Command

/-- What a command sees of the system: the working directory and its path, the environment, and how
many seconds it has taken, as text. -/
structure Surroundings where
  position : FileTree.Position
  directory : List Char
  environment : Environment := []
  elapsed : String := "0.00"

/-- The configuration of a command, with the path of its file and the warnings about it. -/
structure Context where
  configuration : Configuration := .default
  path : Option (List Char) := none
  warnings : List SettingsWarning := []
  deriving Repr

structure ContextError where
  path : List Char
  error : ConfigurationError
  deriving Repr

/-- The wording of a context error. A file error is named once more as the cause of the others. -/
def ContextError.message (failure : ContextError) : String :=
  let cause :=
    match failure.error with
    | .unreadable error => ": " ++ error.message
    | _ => ""
  "Failed to load config " ++ String.ofList failure.path ++ ": " ++ failure.error.message ++ cause

def configurationPath? (surroundings : Surroundings) (given : Option (List Char)) :
    Option (List Char) :=
  given.or (Configuration.find? surroundings.position surroundings.directory)

def Context.load (surroundings : Surroundings) (given : Option (List Char)) :
    Except ContextError Context :=
  match configurationPath? surroundings given with
  | none => .ok {}
  | some path =>
      match Configuration.loadFile surroundings.position path with
      | .ok loaded =>
          .ok {
            configuration := loaded.configuration
            path := some path
            warnings := loaded.warnings }
      | .error error => .error { path, error }

end ScriptLint.Command
