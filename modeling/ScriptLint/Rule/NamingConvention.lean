import ScriptLint.Rule.Basic
import ScriptLint.Outline.Basic

/-!
# Names in plain code

Reports functions, methods and variables whose name begins with an uppercase letter. Members of
framework classes and variables that hold an instance of one follow the framework's own convention,
and so do entry points.
-/

namespace ScriptLint.NamingConvention

def info : RuleInfo where
  id := "namingConvention"
  description := "Requires function, method and variable names to start with a lowercase letter"

def isExempt (outline : Outline) (declaration : Declaration) : Bool :=
  declaration.enclosing.any outline.isFrameworkClass ||
    declaration.instantiates.any outline.isFrameworkClass

def isReported (outline : Outline) (declaration : Declaration) : Bool :=
  declaration.kind != .property && declaration.startsUppercase && !isExempt outline declaration

def issueOf (declaration : Declaration) : Issue :=
  let label := declaration.kind.label
  let name := String.ofList declaration.name
  info.issue declaration.line declaration.character declaration.name.length
    s!"{label} name '{name}' should start with a lowercase letter"

def issues (document : Document) : List Issue :=
  let outline := Outline.ofDocument document
  if outline.isEntryPoint then []
  else (outline.declarations.filter (isReported outline)).map issueOf

def rule : Rule where
  toRuleInfo := info
  check document _ := .ok (issues document)

end ScriptLint.NamingConvention
