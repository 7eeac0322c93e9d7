import ScriptLint.Command.Lint
import ScriptLint.Command.Rules

/-!
# The command line

What the program does is a function of its arguments and its surroundings.
-/

namespace ScriptLint.Command

def Invocation.appearance (invocation : Invocation) (environment : Environment) : Appearance where
  format := invocation.format
  isPainted := isPainted invocation.color invocation.noColor environment
  isQuiet := invocation.quiet

def Invocation.run (invocation : Invocation) (surroundings : Surroundings) : Outcome :=
  let appearance := invocation.appearance surroundings.environment
  match invocation.action with
  | .lint paths denyWarnings =>
      lint surroundings appearance invocation.configPath paths denyWarnings
  | .rules => rules surroundings appearance invocation.configPath

/-- The files that an invocation reads: that of the configuration, and as far as it can be read also
those to check. -/
def Invocation.filesToRead (invocation : Invocation) (surroundings : Surroundings) :
    List (List Char) :=
  let configuration := configurationPath? surroundings invocation.configPath
  let targets :=
    match invocation.action with
    | .lint paths _ =>
        ((lintTargets surroundings invocation.configPath paths).toOption.map (·.2)).getD []
    | .rules => []
  configuration.toList ++ targets

/-- The part of a path in front of its first component with a meaning in patterns. -/
def fixedPart (path : List Char) : List Char :=
  let isFixed (piece : List Char) : Bool := !piece.any fun letter => "?*[".toList.contains letter
  let pieces := (Text.splitOn '/' path).takeWhile isFixed
  if pieces = [[]] then ['/'] else Text.joinWith '/' pieces

/-- The directories in which an invocation looks for files. -/
def Invocation.directories (invocation : Invocation) : List (List Char) :=
  match invocation.action with
  | .lint paths _ => paths.map fixedPart
  | .rules => []

def usage : List String :=
  ["Usage: [OPTIONS] <COMMAND>",
    "",
    "Commands:",
    "  lint [PATH]...  Check files",
    "  rules           List the rules",
    "",
    "Options:",
    "  -c, --config <FILE>    Configuration file",
    "  -f, --format <FORMAT>  human, json or github",
    "      --deny-warnings    Fail if there is any issue (lint)",
    "      --color            Write coloured text",
    "      --no-color         Write plain text",
    "  -q, --quiet            Write results only",
    "  -h, --help             Write this text"]

def run (words : List (List Char)) (surroundings : Surroundings) : Outcome :=
  match readArguments words with
  | .ok invocation => invocation.run surroundings
  | .error .help => { output := usage }
  | .error .misuse => { errors := usage, status := .misuse }

end ScriptLint.Command
