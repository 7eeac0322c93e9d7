import ScriptLint.Text.Basic

/-!
# Paths

A path is a text. Its components are the pieces between slashes; empty pieces do not count, and a
single dot counts only at the start of a relative path. Two spellings of a path are the same path if
their components agree. The functions here work on the spelling and never look at a file system.
-/

namespace ScriptLint

/-- A component of a path. The order of the constructors is the order of paths. -/
inductive Component where
  | root
  | current
  | parent
  | named (letters : List Char)
  deriving DecidableEq, Repr

namespace Component

/-- The component that a piece between slashes stands for. -/
def ofPiece (piece : List Char) : Component :=
  if piece == ['.'] then current else if piece == ['.', '.'] then parent else named piece

/-- The place of a kind of component in the order of paths. -/
def rank : Component → Nat
  | root => 0
  | current => 1
  | parent => 2
  | named _ => 3

end Component

namespace Path

def isAbsolute (path : List Char) : Bool := path.head? == some '/'

def components (path : List Char) : List Component :=
  let pieces := (Text.splitOn '/' path).filter fun piece => !piece.isEmpty
  if isAbsolute path then
    .root :: (pieces.filter (· != ['.'])).map Component.ofPiece
  else
    match pieces with
    | [] => []
    | first :: rest => .ofPiece first :: (rest.filter (· != ['.'])).map Component.ofPiece

def fileName? (path : List Char) : Option (List Char) :=
  match (components path).getLast? with
  | some (.named letters) => some letters
  | _ => none

/-- What follows the last dot of a file name that does not only begin with one. -/
def extension? (path : List Char) : Option (List Char) := do
  let name ← fileName? path
  let reversed := name.reverse
  let ending := reversed.takeWhile (· != '.')
  match reversed.drop ending.length with
  | _ :: _ :: _ => some ending.reverse
  | _ => none

/-- A path relative to a directory. An absolute path stays as it is. -/
def join (directory path : List Char) : List Char :=
  if isAbsolute path || directory.isEmpty then path
  else if directory.getLast? == some '/' then directory ++ path
  else directory ++ '/' :: path

/-- The spelling without slashes, and dots between them, at its end; the root and the dot at the
start of a relative path stay. The letters come last first. -/
def trimReversed (absolute : Bool) : List Char → List Char
  | [] => []
  | ['/'] => if absolute then ['/'] else []
  | '/' :: rest => trimReversed absolute rest
  | ['.', '/'] => if absolute then ['/'] else ['.', '/']
  | '.' :: '/' :: rest => trimReversed absolute rest
  | letters => letters

/-- The directory that holds the last component, in the spelling of the path. The root and the empty
path have none. -/
def parent? (path : List Char) : Option (List Char) :=
  match (components path).getLast? with
  | none | some .root => none
  | some _ =>
      let absolute := isAbsolute path
      let last := trimReversed absolute path.reverse
      some (trimReversed absolute (last.dropWhile (· != '/'))).reverse

/-- Whether a piece between slashes is no component behind the first one. -/
def isIdlePiece (piece : List Char) : Bool := piece.isEmpty || piece == ['.']

/-- The pieces without a number of components at their start and the idle ones behind them. -/
def dropPieces : Nat → List (List Char) → List (List Char)
  | 0, pieces => pieces.dropWhile isIdlePiece
  | count + 1, pieces => dropPieces count (pieces.dropWhile isIdlePiece).tail

/-- What follows the components of a directory in the spelling of a path. -/
def relativeTo? (directory path : List Char) : Option (List Char) :=
  let outer := components directory
  if outer.isPrefixOf (components path) then
    let count := (outer.filter fun part => part != .root && part != .current).length
    let pieces := dropPieces count (Text.splitOn '/' path)
    some (Text.joinWith '/' (pieces.reverse.dropWhile isIdlePiece).reverse)
  else none

/-- Whether the components of one path come before those of another. -/
def before (first second : List Component) : Bool :=
  match first, second with
  | [], [] => false
  | [], _ :: _ => true
  | _ :: _, [] => false
  | .named left :: first, .named right :: second =>
      if left = right then before first second else String.ofList left < String.ofList right
  | left :: first, right :: second =>
      if left.rank = right.rank then before first second else left.rank < right.rank

/-- Puts a path into a list in ascending order, unless a spelling of it is there. -/
def insertSorted (path : List Char) : List (List Char) → List (List Char)
  | [] => [path]
  | present :: rest =>
      let parts := components path
      let others := components present
      if parts = others then present :: rest
      else if before parts others then path :: present :: rest
      else present :: insertSorted path rest

/-- The names that lead from the root to a path of a directory, where two dots undo the name in
front of them. Both are given by their spelling, and the directory is absolute. -/
def namesFromRoot (directory path : List Char) : List (List Char) :=
  let pieces := Text.splitOn '/' (join directory path)
  let step (names : List (List Char)) (piece : List Char) : List (List Char) :=
    if isIdlePiece piece then names
    else if piece == ['.', '.'] then names.tail
    else piece :: names
  (pieces.foldl step []).reverse

/-- Drops every `./` at the start. -/
def dropCurrent : List Char → List Char
  | '.' :: '/' :: rest => dropCurrent rest
  | letters => letters

end Path

end ScriptLint
