import ScriptLint.Rule.Basic

/-!
# Empty functions

Reports functions, methods and arrow functions whose body is empty. The pattern runs over the joined
lines, so a head may stand on several of them. A match that begins in a comment or a template
literal does not count, nor do control statements, nor a constructor with parameters, which may
declare members.
-/

namespace ScriptLint.NoEmptyFunctions

open Text Text.Pattern

def info : RuleInfo where
  id := "noEmptyFunctions"
  description := "Disallows empty function bodies without an explanatory comment"

/-- Type parameters on one line, if there are any. -/
def typeParameters : Pattern :=
  optional (inOrder [literal "<", many (noneOf ">\n"), literal ">"])

def parameters : Pattern := inOrder [literal "(", many (noneOf ")"), literal ")"]

/-- A function with its keyword, its name and its parameters. -/
def functionHead : Pattern :=
  inOrder [atWordEdge, literal "function", atWordEdge, spaces, optional (literal "*"), spaces,
    identifier, spaces, typeParameters, spaces, parameters]

/-- A name that is set to an arrow function, up to the arrow. -/
def arrowHead : Pattern :=
  inOrder [atWordEdge, identifier, spaces,
    optional (sequence (literal ":") (repeated (noneOf "=\n"))),
    literal "=", spaces, optional (sequence (literal "async") gap),
    choice parameters identifier, spaces,
    optional (inOrder [literal ":", spaces, repeatedFew (noneOf "=\n")]), spaces, literal "=>"]

/-- A method: its name in group 1 and its parameters in group 2. -/
def methodHead : Pattern :=
  inOrder [atWordEdge, group 1 identifier, spaces, typeParameters, spaces, literal "(",
    group 2 (many (noneOf ")")), literal ")"]

/-- A head, a result type on one line if there is one, and an empty body. -/
def emptyFunction : Pattern :=
  inOrder [firstOf [functionHead, arrowHead, methodHead], spaces,
    optional (inOrder [literal ":", spaces, repeatedFew (noneOf "\x7b\x7d;=()\n")]), spaces,
    literal "\x7b", spaces, literal "\x7d"]

/-- The words that read like the name of a method and are none. -/
def notMethods : List String :=
  ["if", "for", "while", "switch", "catch", "with", "function", "return", "do", "else"]

/-- Whether a match is a control statement or a constructor with parameters. -/
def isExempt (found : Match) : Bool :=
  match found.group? 1 with
  | none => false
  | some method =>
      notMethods.any (fun word => word.toList == method.letters) ||
        (method.letters == "constructor".toList &&
          (found.group? 2).any fun parameters => !isBlank parameters.letters)

/-- The issue for a match in the joined lines. It ends with its first line at the latest. -/
def issueOfMatch? (starts : List Nat) (lines : Array ScannedLine) (found : Match) :
    Except Failure (Option Issue) :=
  let (index, column) := lineColumn starts found.whole.start
  match lines[index]? with
  | none => .ok none
  | some line =>
      if isExempt found || line.isInComment column || line.isInTemplate column then .ok none
      else do
        let character := line.column column
        let (endIndex, endColumn) := lineColumn starts found.whole.stop
        let stop := if endIndex = index then line.column endColumn else line.text.length
        let length ← spanLength character stop
        .ok (some (info.issue index character length
          "Empty function body; implement it or add a comment explaining why it is empty"))

def issues (document : Document) : Except Failure (List Issue) := do
  let joined := document.joined
  let starts := lineStarts joined
  let lines := document.scan.toArray
  let found ← (emptyFunction.searchAll joined).mapM (issueOfMatch? starts lines)
  .ok (Issue.sorted (found.filterMap fun issue => issue))

def rule : Rule where
  toRuleInfo := info
  check document _ := issues document

end ScriptLint.NoEmptyFunctions
