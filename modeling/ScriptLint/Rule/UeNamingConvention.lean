import ScriptLint.Rule.Basic
import ScriptLint.Outline.Basic

/-!
# Names in framework scripts

In an entry point, reports methods, properties and variables whose name begins with a lowercase
letter, unless a decorator that marks them for the framework stands on their line or a few lines
above.
-/

namespace ScriptLint.UeNamingConvention

open Text Text.Pattern

def info : RuleInfo where
  id := "ueNamingConvention"
  description :=
    "Requires methods, properties and locals in framework scripts to start with an uppercase letter"

/-- A decorator that marks a declaration for the framework. -/
def markerDecorator : Pattern :=
  inOrder [atStart, literal "@", optional (literal "UE."),
    wordOf ["ufunction", "uproperty", "uparam", "rpc"], atWordEdge]

/-- How many lines above a declaration its marker may stand. -/
def lookback : Nat := 5

/-- Whether a marker stands on a line or at most the lookback above it. -/
def isMarked (lines : List ScannedLine) (index : Nat) : Bool :=
  ((lines.take (index + 1)).drop (index - lookback)).any fun line =>
    markerDecorator.occursIn line.trimmed

def isReported (lines : List ScannedLine) (declaration : Declaration) : Bool :=
  declaration.kind != .function && declaration.startsLowercase &&
    !isMarked lines declaration.line

def issueOf (declaration : Declaration) : Issue :=
  let label := declaration.kind.label
  let name := String.ofList declaration.name
  info.issue declaration.line declaration.character declaration.name.length
    s!"{label} name '{name}' should start with an uppercase letter in framework scripts"

def issues (document : Document) : List Issue :=
  let outline := Outline.ofDocument document
  if outline.isEntryPoint then
    (outline.declarations.filter (isReported document.scan)).map issueOf
  else []

def rule : Rule where
  toRuleInfo := info
  check document _ := .ok (issues document)

end ScriptLint.UeNamingConvention
