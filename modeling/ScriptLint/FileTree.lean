import ScriptLint.Path

/-!
# File trees

A file tree is a file or a directory of named file trees. A path is looked up piece by piece from a
directory on, which is kept as the stack of the directories around it: a name goes down into the
innermost directory, two dots go up, and a single dot or an empty piece stays. Every piece but the
first needs a directory in front of it, so a slash at the end of a path asks for a directory.
-/

namespace ScriptLint

/-- A file, with its text unless its bytes encode none, or a directory. -/
inductive FileTree where
  | file (text : Option (List Char))
  | directory (entries : List (List Char × FileTree))
  deriving Repr, Inhabited

inductive FileError where
  | notFound
  | notDirectory
  | isDirectory
  | notText
  deriving DecidableEq, Repr

def FileError.message : FileError → String
  | notFound => "No such file or directory (os error 2)"
  | notDirectory => "Not a directory (os error 20)"
  | isDirectory => "Is a directory (os error 21)"
  | notText => "stream did not contain valid UTF-8"

namespace FileTree

def isFile : FileTree → Bool
  | file _ => true
  | directory _ => false

def isDirectory (tree : FileTree) : Bool := !tree.isFile

/-- The entries of a directory. A file has none. -/
def entries : FileTree → List (List Char × FileTree)
  | file _ => []
  | directory entries => entries

/-- The names in a directory in ascending order. -/
def names (tree : FileTree) : List (List Char) :=
  (tree.entries.map (·.1)).mergeSort fun left right => String.ofList left ≤ String.ofList right

def entry? (tree : FileTree) (name : List Char) : Option FileTree := tree.entries.lookup name

/-- The entries with one put under a name, at its place if the name is there. -/
def setEntry (name : List Char) (tree : FileTree) :
    List (List Char × FileTree) → List (List Char × FileTree)
  | [] => [(name, tree)]
  | entry :: entries =>
      if entry.1 = name then (name, tree) :: entries else entry :: setEntry name tree entries

/-- The tree with another one put at a place, given by the names that lead there. Directories on the
way are made, and a file in the way is replaced by one. -/
def put (tree : FileTree) (names : List (List Char)) (inner : FileTree) : FileTree :=
  match names with
  | [] => inner
  | name :: names =>
      let entry := (tree.entry? name).getD (directory [])
      directory (setEntry name (entry.put names inner) tree.entries)
termination_by structural names

/-- The tree at the root around a stack of directories. -/
def outermost (tree : FileTree) (outer : List FileTree) : FileTree := outer.getLastD tree

/-- A directory with the directories around it, innermost first, and the root as the last. -/
structure Position where
  current : FileTree
  outer : List FileTree
  deriving Repr, Inhabited

namespace Position

def root (tree : FileTree) : Position := ⟨tree, []⟩

/-- The position at the root around a position. -/
def top (position : Position) : Position := root (outermost position.current position.outer)

/-- The position that one piece of a path leads to. The root is its own parent. -/
def step (position : Position) (piece : List Char) : Except FileError Position :=
  if position.current.isFile then .error .notDirectory
  else if piece.isEmpty || piece == ['.'] then .ok position
  else if piece == ['.', '.'] then
    match position.outer with
    | [] => .ok position
    | current :: outer => .ok ⟨current, outer⟩
  else
    match position.current.entry? piece with
    | some found => .ok ⟨found, position.current :: position.outer⟩
    | none => .error .notFound

/-- The position that a path leads to. The empty path leads nowhere. -/
def resolve (position : Position) (path : List Char) : Except FileError Position :=
  if path.isEmpty then .error .notFound
  else
    let start := if Path.isAbsolute path then position.top else position
    (Text.splitOn '/' path).foldlM step start

def get? (position : Position) (path : List Char) : Option FileTree :=
  (position.resolve path).toOption.map (·.current)

def hasFile (position : Position) (path : List Char) : Bool := (position.get? path).any isFile

def hasDirectory (position : Position) (path : List Char) : Bool :=
  (position.get? path).any isDirectory

def read (position : Position) (path : List Char) : Except FileError (List Char) := do
  match (← position.resolve path).current with
  | directory _ => .error .isDirectory
  | file none => .error .notText
  | file (some text) => .ok text

end Position

mutual

/-- What lies below a tree that is itself inside of directories: the names that lead there from the
tree, and the position. -/
def inside (outer : List FileTree) : FileTree → List (List (List Char) × Position)
  | file _ => []
  | directory entries => insideEntries (directory entries :: outer) entries

/-- What lies at and below entries that are inside of directories. -/
def insideEntries (outer : List FileTree) :
    List (List Char × FileTree) → List (List (List Char) × Position)
  | [] => []
  | (name, tree) :: entries =>
      ([name], ⟨tree, outer⟩) ::
        (inside outer tree).map (fun found => (name :: found.1, found.2)) ++
          insideEntries outer entries

end

end FileTree

end ScriptLint
