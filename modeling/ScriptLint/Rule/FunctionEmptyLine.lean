import ScriptLint.Rule.Basic
import ScriptLint.Outline.Declaration

/-!
# Blank line after a function head

Requires the body of a function or method to begin with a blank line. The head may extend over
several lines: the brace that opens the body is the one after which exactly one delimiter more is
open than before the head.
-/

namespace ScriptLint.FunctionEmptyLine

open Text Text.Pattern

def info : RuleInfo where
  id := "functionEmptyLine"
  description :=
    "Requires a blank line between a function head and the first statement of its body"

inductive HeadKind where
  | function
  | method
  deriving DecidableEq, Repr

def functionHead : Pattern :=
  inOrder [atStart, optional (sequence (literal "export") gap),
    optional (sequence (literal "default") gap), optional (sequence (literal "declare") gap),
    optional (sequence (literal "async") gap), literal "function", atWordEdge]

/-- A method at the start of a line up to its parameters, its name in group 1. -/
def methodHead : Pattern :=
  inOrder [atStart, Declaration.decorators, Declaration.modifiers Declaration.methodModifiers,
    optional (literal "*"), group 1 identifier, spaces, Declaration.typeParameters, spaces,
    literal "("]

/-- The head on a line of code: a function between statements, a method that is no constructor
directly inside a class. -/
def headKind? (line : ScannedLine) : Option HeadKind :=
  let function :=
    if functionHead.occursIn line.trimmed then some HeadKind.function else none
  match line.startTop? with
  | none | some (.brace .block _) => function
  | some (.brace .classBody _) =>
      match (methodHead.search? line.trimmed).bind (·.group? 1) with
      | some span => if span.letters == "constructor".toList then none else some .method
      | none => none
  | _ => none

/-- The line of the brace that opens the body of a head, searched from the line of the head on. The
depth is that of the stack before the head. A body whose brace is not at the end of its line is not
found. -/
def bodyBrace? (depth : Nat) : List PlacedLine → Option PlacedLine
  | [] => none
  | placed :: rest =>
      let line := placed.line
      if !line.isCode then bodyBrace? depth rest
      else if line.endStack.length ≤ depth then none
      else if line.endStack.length = depth + 1 && line.endTop?.any (Frame.opens .block) then
        if endsIn "\x7b" line.trimmed then some placed else none
      else bodyBrace? depth rest

/-- Whether the lines of a body begin with a blank line, or the body ends before any code. Comments
are passed over. -/
def isSpaced : List ScannedLine → Bool
  | [] => true
  | line :: rest =>
      if line.isBlank then true
      else if line.isComment then isSpaced rest
      else beginsWith "\x7d" line.trimmed

/-- Byte position of the last opening brace in code, zero if there is none. -/
def lastBrace (code : List Char) : Nat :=
  byteLength ((code.reverse.dropWhile fun letter => letter != '\x7b').drop 1)

def HeadKind.message : HeadKind → String
  | function => "Function body should start with a blank line"
  | method => "Method body should start with a blank line"

/-- The issue for a head, if its body begins without a blank line. It stands behind the brace. The
lines begin with that of the head. -/
def issueOfHead? (kind : HeadKind) (depth : Nat) (lines : List PlacedLine) : Option Issue :=
  match bodyBrace? depth lines with
  | none => none
  | some brace =>
      if isSpaced brace.following then none
      else
        some (info.openIssue brace.index (brace.line.column (lastBrace brace.line.code) + 1)
          kind.message)

def issuesOfLines : List PlacedLine → List Issue
  | [] => []
  | placed :: rest =>
      let line := placed.line
      let issue :=
        if line.beginsCode then
          (headKind? line).bind fun kind =>
            issueOfHead? kind line.startStack.length (placed :: rest)
        else none
      issue.toList ++ issuesOfLines rest

def rule : Rule where
  toRuleInfo := info
  check document _ := .ok (issuesOfLines document.placedLines)

end ScriptLint.FunctionEmptyLine
