/-!
# Open delimiters

A frame is a delimiter that has been opened and not yet closed. A brace remembers the line on which
it was opened and what it was judged to open. Stacks of frames are lists with the innermost frame
first.
-/

namespace ScriptLint

inductive BraceKind where
  /-- Statements. -/
  | block
  | classBody
  /-- An object literal. -/
  | object
  /-- The names of an import, an export or a destructuring pattern. -/
  | binding
  /-- The members of an enumeration. -/
  | enumeration
  | typeBody
  deriving DecidableEq, Repr

inductive Frame where
  /-- A parenthesis; `header` marks the condition of a control keyword. -/
  | paren (header : Bool)
  | bracket
  /-- A brace with the line on which it was opened. -/
  | brace (kind : BraceKind) (line : Nat)
  deriving DecidableEq, Repr

namespace Frame

def braceKind? : Frame → Option BraceKind
  | brace kind _ => some kind
  | _ => none

/-- Whether the lines directly inside a frame continue an expression. -/
def isExpression : Frame → Bool
  | paren _ => true
  | bracket => true
  | brace kind _ => kind == .object || kind == .binding || kind == .enumeration

def opens (kind : BraceKind) (frame : Frame) : Bool := frame.braceKind? == some kind

end Frame

end ScriptLint
