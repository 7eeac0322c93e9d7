import ScriptLint.Command.Basic

/-!
# The program

The program gathers what its arguments need of the file system into a file tree, runs the command on
it and writes the outcome. First only names are gathered, then the configuration file is read, and
then the files to check.
-/

namespace ScriptLint.Command

/-- A path as the system spells it. -/
def spelled (names : List (List Char)) : String :=
  String.ofList ('/' :: Text.joinWith '/' names)

/-- The tree of names at a path, whose files are not read yet. Links that lead back to a directory
around them are not followed. -/
partial def gatherNames (outer : List String) (path : String) : IO FileTree := do
  let place ← IO.FS.realPath path
  if outer.contains place.toString then return .directory []
  else if ← place.isDir then
    let mut entries := []
    for entry in ← place.readDir do
      try
        let inner ← gatherNames (place.toString :: outer) (path ++ "/" ++ entry.fileName)
        entries := (entry.fileName.toList, inner) :: entries
      catch _ => pure ()
    return .directory entries
  else return .file none

/-- The tree with the names at a path, if there is something. -/
def addNames (directory path : List Char) (tree : FileTree) : IO FileTree := do
  let names := Path.namesFromRoot directory path
  try
    return tree.put names (← gatherNames [] (spelled names))
  catch _ => return tree

/-- The tree with the configuration files of a directory that are there, not read yet. -/
def addConfigurationNames (tree : FileTree) (directory : List Char) : IO FileTree := do
  let mut tree := tree
  for name in Configuration.fileNames do
    let path := Path.join directory name
    let names := Path.namesFromRoot directory name
    try
      if !(← (← IO.FS.realPath (String.ofList path)).isDir) then
        tree := tree.put names (.file none)
    catch _ => pure ()
  return tree

/-- The tree with the text of the file at a path. -/
def addText (directory : List Char) (tree : FileTree) (path : List Char) : IO FileTree := do
  let names := Path.namesFromRoot directory path
  try
    let bytes ← IO.FS.readBinFile (spelled names)
    return tree.put names (.file ((String.fromUTF8? bytes).map String.toList))
  catch _ => return tree

/-- The surroundings in a file tree. -/
def surroundingsIn (tree : FileTree) (directory : List Char) (environment : Environment)
    (elapsed : String) : Surroundings :=
  let root := FileTree.Position.root tree
  { position := (root.resolve directory).toOption.getD root, directory, environment, elapsed }

def readEnvironment : IO Environment := do
  let mut environment := []
  for name in ["NO_COLOR", "CLICOLOR", "CLICOLOR_FORCE"] do
    if let some value ← IO.getEnv name then environment := (name, value) :: environment
  return environment

/-- Seconds with two decimals, from milliseconds. -/
def secondsText (milliseconds : Nat) : String :=
  let hundredths := (milliseconds + 5) / 10
  let decimals := toString (hundredths % 100)
  toString (hundredths / 100) ++ "." ++ (if decimals.length = 1 then "0" ++ decimals else decimals)

/-- Gathers what an invocation needs and carries it out. -/
def Invocation.execute (invocation : Invocation) : IO Outcome := do
  let start ← IO.monoMsNow
  let directory := (← IO.currentDir).toString.toList
  let environment ← readEnvironment
  let mut tree := (FileTree.directory []).put (Path.namesFromRoot directory []) (.directory [])
  let enclosing := Configuration.enclosing (Path.components directory).length directory
  for outer in enclosing.reverse do
    tree ← addConfigurationNames tree outer
  for path in invocation.configPath.toList ++ invocation.directories do
    tree ← addNames directory path tree
  for _ in [0, 1] do
    for path in invocation.filesToRead (surroundingsIn tree directory environment "") do
      tree ← addText directory tree path
  let elapsed := secondsText ((← IO.monoMsNow) - start)
  return invocation.run (surroundingsIn tree directory environment elapsed)

end ScriptLint.Command

open ScriptLint.Command

def main (arguments : List String) : IO UInt32 := do
  let words := arguments.map String.toList
  let outcome ←
    match readArguments words with
    | .ok invocation => invocation.execute
    | .error _ => pure (run words (surroundingsIn (.directory []) ['/'] [] ""))
  IO.print outcome.outputText
  IO.eprint outcome.errorText
  return UInt32.ofNat outcome.status.code
