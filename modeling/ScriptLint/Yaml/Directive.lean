import ScriptLint.Yaml.Token

/-!
# Directives

A directive is a line in front of a document. One gives the version of YAML, another maps a handle
to the beginning of tags. There are no others.
-/

namespace ScriptLint.Yaml

def versionDigits : Nat := 9

def readVersionNumber (cursor : Cursor) : Option (Nat × Cursor) := do
  let (digits, cursor) := cursor.takeWhile Char.isDigit
  if versionDigits < digits.length then none
  else some (← Number.ofDigits? 10 digits, cursor)

/-- Reads two numbers with a point between them. -/
def readVersion (cursor : Cursor) : Option (Token × Cursor) := do
  let (major, cursor) ← readVersionNumber cursor
  if cursor.rest.head? ≠ some '.' then none
  else
    let (minor, cursor) ← readVersionNumber (cursor.skip 1)
    some (.version major minor, cursor)

/-- Reads a handle and the beginning of tags, with blanks between them and white space behind. A
handle is closed or a single exclamation mark. -/
def readHandleValue (cursor : Cursor) : Option (Token × Cursor) := do
  let (handle, cursor) ← readHandle cursor
  if ¬isClosedHandle handle ∧ handle ≠ ['!'] then none
  else if ¬cursor.rest.head?.any isBlank then none
  else
    let (beginning, cursor) ← readFilledSuffix true (cursor.skipWhile isBlank)
    if beginsWithSpace cursor.rest then some (.handle handle beginning, cursor) else none

/-- Reads a directive behind its percent sign with the rest of its line. -/
def readDirective (cursor : Cursor) : Option (Token × Cursor) := do
  let (name, cursor) := cursor.takeWhile isNameLetter
  if ¬beginsWithSpace cursor.rest then none
  else
    let cursor := cursor.skipWhile isBlank
    let (token, cursor) ←
      if name = ['Y', 'A', 'M', 'L'] then readVersion cursor
      else if name = ['T', 'A', 'G'] then readHandleValue cursor
      else none
    some (token, ← cursor.endLine?)

end ScriptLint.Yaml
