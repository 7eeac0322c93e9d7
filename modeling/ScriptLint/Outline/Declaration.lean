import ScriptLint.Outline.Framework
import ScriptLint.Source.Scanner

/-!
# Declarations

The names that a line of code declares. Directly inside a class body a line declares at most one
member, a method if it reads as one and else a property; everywhere else it declares the functions
and then the variables that its code names.
-/

namespace ScriptLint

open Text Text.Pattern

inductive DeclarationKind where
  | function
  | method
  | property
  /-- A variable. -/
  | binding
  deriving DecidableEq, Repr

def DeclarationKind.label : DeclarationKind → String
  | function => "Function"
  | method => "Method"
  | property => "Property"
  | binding => "Variable"

structure Declaration where
  kind : DeclarationKind
  name : List Char
  line : Nat
  /-- The character column of the name. -/
  character : Nat
  /-- The innermost class around the line. -/
  enclosing : Option (List Char)
  /-- The type whose instance initialises a variable. -/
  instantiates : Option (List Char)
  deriving DecidableEq, Repr

namespace Declaration

def startsUppercase (declaration : Declaration) : Bool := declaration.name.head?.any isUppercase

def startsLowercase (declaration : Declaration) : Bool := declaration.name.head?.any isLowercase

def functionPattern : Pattern :=
  inOrder [atWordEdge, literal "function", spaces, optional (literal "*"), spaces,
    group 1 identifier]

def variablePattern : Pattern :=
  inOrder [atWordEdge, wordOf ["let", "const", "var"], gap, group 1 identifier]

/-- What follows the name of a variable that is initialised by a new instance. -/
def instancePattern : Pattern :=
  inOrder [atStart, spaces, optional (sequence (literal ":") (many (noneOf "="))), literal "=",
    spaces, literal "new", gap, group 1 ClassHeader.dottedName]

/-- Decorators, each with white space behind it. -/
def decorators : Pattern :=
  many (inOrder [literal "@", repeated (one fun letter => isName letter || letter == '.'),
    optional (inOrder [literal "(", many (noneOf ")"), literal ")"]), gap])

/-- Modifiers, each with white space behind it. -/
def modifiers (words : List String) : Pattern := many (sequence (wordOf words) gap)

def methodModifiers : List String :=
  ["public", "private", "protected", "static", "async", "override", "abstract", "get", "set"]

def propertyModifiers : List String :=
  ["public", "private", "protected", "static", "override", "readonly", "declare", "abstract"]

/-- Type parameters between angle brackets, if there are any. -/
def typeParameters : Pattern :=
  optional (inOrder [literal "<", many (noneOf ">"), literal ">"])

def methodPattern : Pattern :=
  inOrder [atStart, spaces, decorators, modifiers methodModifiers, optional (literal "*"), spaces,
    group 1 identifier, spaces, typeParameters, spaces, literal "("]

def propertyPattern : Pattern :=
  inOrder [atStart, spaces, decorators, modifiers propertyModifiers, group 1 identifier, spaces,
    optional (oneOf "?!"), spaces, oneOf ":=;"]

/-- Names that a member pattern finds although they are no member's name. -/
def skippedMembers : List String := ["constructor", "get", "set"]

def member? (index : Nat) (line : ScannedLine) (enclosing : Option (List Char)) :
    Option Declaration := do
  let (kind, found) ←
    match methodPattern.search? line.code with
    | some found => some (DeclarationKind.method, found)
    | none => (propertyPattern.search? line.code).map (DeclarationKind.property, ·)
  let span ← found.group? 1
  if skippedMembers.any fun word => word.toList == span.letters then none
  else
    some {
      kind, name := span.letters, line := index, character := line.column span.start, enclosing
      instantiates := none }

def functions (index : Nat) (line : ScannedLine) (enclosing : Option (List Char)) :
    List Declaration :=
  (functionPattern.searchAll line.code).filterMap fun found =>
    (found.group? 1).map fun span =>
      { kind := .function, name := span.letters, line := index
        character := line.column span.start, enclosing, instantiates := none }

/-- The type whose instance initialises the variable whose name ends at a byte position. -/
def instantiated? (code : List Char) (position : Nat) : Option (List Char) := do
  let (_, rest) ← splitAtByte? code position
  let found ← instancePattern.search? rest
  (found.group? 1).map (·.letters)

def locals (index : Nat) (line : ScannedLine) (enclosing : Option (List Char)) :
    List Declaration :=
  (variablePattern.searchAll line.code).filterMap fun found =>
    (found.group? 1).map fun span =>
      { kind := .binding, name := span.letters, line := index
        character := line.column span.start, enclosing
        instantiates := instantiated? line.code span.stop }

def ofLine (index : Nat) (line : ScannedLine) (enclosing : Option (List Char)) :
    List Declaration :=
  if line.startTop?.any (Frame.opens .classBody) then (member? index line enclosing).toList
  else functions index line enclosing ++ locals index line enclosing

end Declaration

end ScriptLint
