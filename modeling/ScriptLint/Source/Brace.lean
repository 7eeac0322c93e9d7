import ScriptLint.Source.Frame
import ScriptLint.Text.Pattern

/-!
# What a brace opens

A brace is judged by the segment of code before it: the text since the last brace or semicolon of
its line, or, if there is none, since the last one of the code line above. The tests run in a fixed
order and the first that holds decides; a brace that no test claims opens a block.
-/

namespace ScriptLint.Brace

open Text Text.Pattern

/-- An enumeration and its name, up to the end. -/
def enumHeader : Pattern := inOrder [atWordEdge, literal "enum", gap, identifier, spaces, atEnd]

def interfaceHeader : Pattern := inOrder [atWordEdge, literal "interface", gap, identifier]

/-- Any character of one line. -/
def anyOnLine : Pattern := noneOf "\n"

/-- A type alias up to its equals sign at the end. -/
def aliasHeader : Pattern :=
  inOrder [atStart, optional (inOrder [literal "export", gap]),
    optional (inOrder [literal "declare", gap]), literal "type", gap, identifier, many anyOnLine,
    literal "=", spaces, atEnd]

def classHeader : Pattern := inOrder [atWordEdge, literal "class", atWordEdge]

/-- A control keyword at the start. -/
def controlHeader : Pattern :=
  inOrder [atStart,
    wordOf ["if", "else", "for", "while", "do", "switch", "try", "catch", "finally", "with"],
    atWordEdge]

/-- The head of a list of names that is nothing else: an import, an export or a declaration. -/
def bindingHead : Pattern :=
  inOrder [atStart,
    firstOf [
      inOrder [wordOf ["import", "export"], optional (inOrder [gap, literal "type"])],
      inOrder [optional (inOrder [literal "export", gap]), wordOf ["const", "let", "var"]]],
    atEnd]

/-- A word at the end after which a value follows. -/
def valueWordEnd : Pattern :=
  inOrder [firstOf [atStart, one fun letter => !isName letter],
    wordOf ["return", "yield", "default"], atEnd]

/-- Endings after which a brace opens an object literal. -/
def objectEndings : List String := ["=", "(", "[", ",", "?", "||", "&&", "??"]

/-- The characters that end a segment. -/
def endsSegment (letter : Char) : Bool := letter == '\x7b' || letter == '\x7d' || letter == ';'

/-- The trimmed tail of a code text behind its last brace or semicolon. The text is given from its
last character to its first. -/
def segmentOf (reversed : List Char) : List Char :=
  trim (reversed.takeWhile fun letter => !endsSegment letter).reverse

/-- What a brace behind a segment opens inside the given frame. -/
def kindAfter (segment : List Char) (top : Option Frame) : BraceKind :=
  let enclosing := top.bind Frame.braceKind?
  if enumHeader.occursIn segment then .enumeration
  else if interfaceHeader.occursIn segment || aliasHeader.occursIn segment then .typeBody
  else if classHeader.occursIn segment then .classBody
  else if controlHeader.occursIn segment then .block
  else if bindingHead.occursIn segment then .binding
  else if endsIn ":" segment then
    if beginsWith "case " segment || segment == "default:".toList then .block
    else if enclosing == some .object then .object
    else .typeBody
  else if endsIn "=>" segment then .block
  else if objectEndings.any (endsIn · segment) || valueWordEnd.occursIn segment then .object
  else if segment.isEmpty && enclosing == some .typeBody then .typeBody
  else .block

/-- What a brace opens, judged by the code before it on its line, given from the last character to
the first, and by the code line above. -/
def judge (reversed previous : List Char) (top : Option Frame) : BraceKind :=
  let own := segmentOf reversed
  kindAfter (if own.isEmpty then segmentOf previous.reverse else own) top

end ScriptLint.Brace
