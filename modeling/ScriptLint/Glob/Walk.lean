import ScriptLint.FileTree
import ScriptLint.Glob.Match

/-!
# Walking a file tree by a pattern

A pattern with slashes is walked component by component from a directory on. A component that stands
for one text only is entered by that name, so it may be a dot or two dots. `**` stands for
everything below a directory, at any depth. Every other component is matched against the names in a
directory, and if it begins with a dot, also against the dot and the two dots that every directory
has. A slash at the end of the pattern asks for directories.

The paths that are found are spelled as the walk went, without a dot in front of the first name.
-/

namespace ScriptLint.Glob

/-- A place that a walk has come to: the spelling of its path, its last name, and what is there. -/
structure Visit where
  path : List Char
  name : List Char
  position : FileTree.Position

namespace Visit

def isDirectory (visit : Visit) : Bool := visit.position.current.isDirectory

/-- The spelling of the path to a name in a directory. The dot for the current directory is
dropped. -/
def spell (path name : List Char) : List Char :=
  if Path.components path = [.current] then name else Path.join path name

/-- Enters a directory by a name. The empty name needs a directory that has a spelling of its
own. -/
def enter? (visit : Visit) (name : List Char) : Option Visit := do
  let path := spell visit.path name
  if path.isEmpty then none
  else some { path, name, position := ← (visit.position.step name).toOption }

def descendants (visit : Visit) : List Visit :=
  (FileTree.inside visit.position.outer visit.position.current).map fun (names, position) =>
    { path := names.foldl spell visit.path, name := names.getLastD [], position }

def children (visit : Visit) : List Visit := visit.position.current.names.filterMap visit.enter?

/-- The dot and the two dots of a directory, if they match a pattern that begins with a dot. -/
def dots (visit : Visit) (pattern : Pattern) : List Visit :=
  if pattern.tokens.head? = some (.letter '.') then
    ([['.'], ['.', '.']].filter pattern.accepts).filterMap fun name =>
      (visit.position.step name).toOption.map fun position =>
        { path := Path.join visit.path name, name, position }
  else []

end Visit

/-- The places that the components of a pattern lead to. Neighbouring `**` count as one. -/
def walk : List Pattern → Visit → List Visit
  | [], visit => [visit]
  | pattern :: rest, visit =>
      match pattern.literal? with
      | some name => (visit.enter? name).toList.flatMap (walk rest)
      | none =>
          if !pattern.isRecursive then
            (visit.children.filter fun child => pattern.accepts child.name).flatMap (walk rest) ++
              (visit.dots pattern).flatMap (walk rest)
          else
            match rest with
            | [] => visit.descendants.filter Visit.isDirectory
            | next :: others =>
                if next.isRecursive then walk (next :: others) visit
                else
                  (visit.descendants.filter fun found => next.accepts found.name).flatMap
                    (walk others)

/-- The components of a pattern behind its root. A slash at the end begins none. -/
def pieces (letters : List Char) : List (List Char) :=
  match letters with
  | [] => [[]]
  | _ =>
      let pieces := Text.splitOn '/' letters
      if pieces.getLast? = some [] then pieces.dropLast else pieces

/-- The places that match a pattern. The whole pattern has to be valid, and so has each
component. -/
def visits (position : FileTree.Position) (letters : List Char) : Except Refusal (List Visit) := do
  let _ ← Pattern.ofText letters
  let isAbsolute := Path.isAbsolute letters
  let patterns ← (pieces (if isAbsolute then letters.tail else letters)).mapM Pattern.ofText
  let start : Visit :=
    if isAbsolute then { path := ['/'], name := [], position := position.top }
    else { path := ['.'], name := ['.'], position }
  let needsDirectory := letters.getLast? == some '/'
  .ok ((walk patterns start).filter fun visit => !needsDirectory || visit.isDirectory)

def files (position : FileTree.Position) (letters : List Char) :
    Except Refusal (List (List Char)) := do
  let visits ← visits position letters
  .ok ((visits.filter fun visit => !visit.isDirectory).map Visit.path)

end ScriptLint.Glob
