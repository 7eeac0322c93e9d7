import ScriptLint.Command.Arguments
import ScriptLint.Command.Paint
import ScriptLint.Json.Printer

/-!
# What a command writes

A command writes lines to the standard output and to the standard error and ends with a status. How
lines look depends on the format and, in the format for people, on whether text is painted.
-/

namespace ScriptLint.Command

inductive ExitStatus where
  | success
  | lintFailure
  | configurationFailure
  | misuse
  | fileFailure
  deriving DecidableEq, Repr

def ExitStatus.code : ExitStatus → Nat
  | success => 0
  | lintFailure => 1
  | configurationFailure | misuse => 2
  | fileFailure => 4

/-- How output looks: the format, whether text is painted, and whether notes are left out. -/
structure Appearance where
  format : OutputFormat
  isPainted : Bool
  isQuiet : Bool
  deriving DecidableEq, Repr

/-- Whether there are notes for people besides the results. -/
def Appearance.hasNotes (appearance : Appearance) : Bool :=
  appearance.format == .human && !appearance.isQuiet

/-- A text with attributes, if text is painted. -/
def Appearance.paint (appearance : Appearance) (paint : Paint) (text : String) : String :=
  paint.apply appearance.isPainted text

structure Outcome where
  output : List String := []
  errors : List String := []
  status : ExitStatus := .success
  deriving DecidableEq, Repr

/-- Lines as text, each with a line feed. -/
def textOfLines (lines : List String) : String := String.join (lines.map (· ++ "\n"))

def Outcome.outputText (outcome : Outcome) : String := textOfLines outcome.output

def Outcome.errorText (outcome : Outcome) : String := textOfLines outcome.errors

def Appearance.errorLine (appearance : Appearance) (message : String) : String :=
  match appearance.format with
  | .human => appearance.paint (.bold .red) "✗" ++ " " ++ appearance.paint (.colored .red) message
  | .json => (Json.object [("error", .string message)]).compact
  | .github => "::error ::" ++ message

end ScriptLint.Command
