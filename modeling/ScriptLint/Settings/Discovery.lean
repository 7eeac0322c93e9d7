import ScriptLint.FileTree

/-!
# Finding a configuration file

A configuration holds for the directory of its file and all directories below. The file is searched
for in a directory, then in the directory around it, and so on; the first directory with a file of
one of the five names decides, and in it the first of the names. A directory with such a name is no
configuration file.
-/

namespace ScriptLint.Configuration

/-- The names of configuration files, the preferred one first. -/
def fileNames : List (List Char) :=
  [".tslintrc.json", ".tslintrc.yaml", ".tslintrc.yml", ".tslintrc", "tslint.config.json"].map
    String.toList

def findIn? (position : FileTree.Position) (directory : List Char) : Option (List Char) :=
  (fileNames.map (Path.join directory)).find? position.hasFile

/-- A directory and the directories around it, by their paths, nearest first. Each step drops a
component, so as many steps as the path has components suffice. -/
def enclosing : Nat → List Char → List (List Char)
  | 0, directory => [directory]
  | steps + 1, directory =>
      directory :: ((Path.parent? directory).map (enclosing steps)).getD []

/-- The path of the configuration file that holds for a directory. -/
def find? (position : FileTree.Position) (directory : List Char) : Option (List Char) :=
  (enclosing (Path.components directory).length directory).findSome? (findIn? position)

end ScriptLint.Configuration
