import ScriptLint.Rule.Basic

/-!
# Indentation

Checks the spaces and tabs at the start of lines that carry code: none of the wrong character, and
with spaces a multiple of the indentation width. Lines that begin inside a comment or a template
literal are left alone.
-/

namespace ScriptLint.Indent

def info : RuleInfo where
  id := "indent"
  description := "Enforces consistent indentation with spaces or tabs"

def leading (line : List Char) : List Char :=
  line.takeWhile fun letter => letter == ' ' || letter == '\t'

def wrongCharacter? (options : IndentOptions) (indentation : List Char) : Option String :=
  if options.useSpaces && indentation.contains '\t' then
    some "Indentation should use spaces, found a tab"
  else if !options.useSpaces && indentation.contains ' ' then
    some "Indentation should use tabs, found spaces"
  else none

def wrongWidth? (options : IndentOptions) (width : Nat) : Except Failure (Option String) :=
  if options.useSpaces then do
    let size := options.size
    if (← remainder width size) = 0 then .ok none
    else .ok (some s!"Indentation of {width} is not a multiple of {size}")
  else .ok none

def issuesOfLine (options : IndentOptions) (index : Nat) (line : ScannedLine) :
    Except Failure (List Issue) :=
  let indentation := leading line.text
  if !line.beginsCode || line.state == .inBlockComment || indentation.isEmpty then .ok []
  else do
    let width := indentation.length
    let messages :=
      (wrongCharacter? options indentation).toList ++ (← wrongWidth? options width).toList
    .ok (messages.map fun message => info.issue index 0 width message)

def issues (options : IndentOptions) (document : Document) : Except Failure (List Issue) := do
  let found ← document.scan.zipIdx.mapM fun entry => issuesOfLine options entry.2 entry.1
  .ok found.flatten

def rule : Rule where
  toRuleInfo := info
  check document options := do issues (← options.indent? info.id) document

end ScriptLint.Indent
