import ScriptLint.Glob.Filter
import ScriptLint.Glob.Walk

/-!
# The files to check

A path that is given may be a file, which is checked as it is; a directory, in which the patterns to
include are walked and the file filter is asked; or else a pattern, which has to match some file.
All files together are in the order of paths, each once, in the spelling in which it was met first.
-/

namespace ScriptLint.Command

inductive CollectionError where
  | noMatch (pattern : List Char)
  | refused (refusal : Glob.Refusal)
  deriving DecidableEq, Repr

def CollectionError.message : CollectionError → String
  | noMatch pattern => "No files match '" ++ String.ofList pattern ++ "'"
  | refused refusal => refusal.message

def matching (position : FileTree.Position) (pattern : List Char) :
    Except CollectionError (List (List Char)) :=
  (Glob.files position pattern).mapError .refused

/-- The pattern for what a pattern to include matches in a directory. -/
def patternIn (directory : List Char) (pattern : String) : List Char :=
  Glob.escape directory ++ '/' :: Path.dropCurrent pattern.toList

/-- Whether a filter accepts a file that was found in a directory. A file whose path does not lead
through the directory is taken by its whole path. -/
def acceptsIn (filter : FileFilter) (directory file : List Char) : Bool :=
  filter.accepts ((Path.relativeTo? directory file).getD file)

/-- The files in a directory that a pattern to include reaches and the filter accepts. -/
def filesByPattern (position : FileTree.Position) (filter : FileFilter) (directory : List Char)
    (pattern : String) : Except CollectionError (List (List Char)) := do
  let found ← matching position (patternIn directory pattern)
  .ok (found.filter (acceptsIn filter directory))

def filesIn (position : FileTree.Position) (included : List String) (filter : FileFilter)
    (directory : List Char) : Except CollectionError (List (List Char)) :=
  List.flatten <$> included.mapM (filesByPattern position filter directory)

def filesOf (position : FileTree.Position) (included : List String) (filter : FileFilter)
    (path : List Char) : Except CollectionError (List (List Char)) :=
  if position.hasFile path then .ok [path]
  else if position.hasDirectory path then filesIn position included filter path
  else do
    let found ← matching position path
    if found.isEmpty then .error (.noMatch path) else .ok found

def collect (position : FileTree.Position) (included : List String) (filter : FileFilter)
    (paths : List (List Char)) : Except CollectionError (List (List Char)) := do
  let found ← paths.mapM (filesOf position included filter)
  .ok (found.flatten.foldl (fun files path => Path.insertSorted path files) [])

end ScriptLint.Command
