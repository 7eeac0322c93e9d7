import ScriptLint.Outline.Declaration

/-!
# The outline of a file

The classes of a file, the names it declares, and whether it is an entry point, that is, ends by
exporting a name as its default. Lines that begin inside a template literal declare nothing.
-/

namespace ScriptLint

open Text Text.Pattern

structure Outline where
  classes : List ClassHeader
  declarations : List Declaration
  /-- The file ends by exporting a name as its default. -/
  isEntryPoint : Bool
  /-- The names of the classes that derive from the framework. -/
  framework : List (List Char)
  deriving DecidableEq, Repr

namespace Outline

/-- The export of a name as default, up to the end of the text. -/
def entryPointPattern : Pattern :=
  inOrder [literal "export", gap, literal "default", gap, identifier, spaces,
    optional (literal ";"), spaces, atEnd]

def endsInDefaultExport (letters : List Char) : Bool := entryPointPattern.occursIn letters

def classesOf (lines : List (ScannedLine × Nat)) : List ClassHeader :=
  lines.flatMap fun entry =>
    if entry.1.beginsCode then ClassHeader.inCode entry.2 entry.1.code else []

/-- The last class whose header stands on the line of a brace or above it. -/
def classAt? (classes : List ClassHeader) (line : Nat) : Option ClassHeader :=
  (classes.reverse.find? fun header => header.line ≤ line)

/-- The name of the class around a line: the first class body of the stack, from the innermost
delimiter on, that has a header on the line of its brace or above. -/
def enclosing? (classes : List ClassHeader) (line : ScannedLine) : Option (List Char) :=
  line.startStack.findSome? fun frame =>
    match frame with
    | .brace .classBody opened => (classAt? classes opened).map (·.name)
    | _ => none

def declarationsOf (classes : List ClassHeader) (lines : List (ScannedLine × Nat)) :
    List Declaration :=
  lines.flatMap fun entry =>
    if entry.1.beginsCode then
      Declaration.ofLine entry.2 entry.1 (enclosing? classes entry.1)
    else []

def ofDocument (document : Document) : Outline :=
  let lines := document.scan.zipIdx
  let classes := classesOf lines
  { classes
    declarations := declarationsOf classes lines
    isEntryPoint := endsInDefaultExport document.text
    framework := ClassHeader.frameworkClasses classes }

/-- Whether a name is a type of the framework or a class that derives from one. -/
def isFrameworkClass (outline : Outline) (name : List Char) : Bool :=
  isFrameworkName name || outline.framework.contains name

end Outline

end ScriptLint
