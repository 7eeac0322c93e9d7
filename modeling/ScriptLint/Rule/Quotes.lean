import ScriptLint.Rule.Basic

/-!
# Quotes

Reports string literals that are enclosed in the other kind of quotes.
-/

namespace ScriptLint.Quotes

open Text Text.Pattern

def info : RuleInfo where
  id := "quotes"
  description := "Enforces single or double quotes for string literals"

/-- A string literal in the given quotes. -/
def literalIn (quote : Char) : Pattern :=
  let plain := one fun letter => letter != quote && letter != '\\'
  let escaped := sequence (literal "\\") (noneOf "\n")
  inOrder [one (· == quote), many (choice plain escaped), one (· == quote)]

def stringLiteral : Pattern := choice (literalIn '\'') (literalIn '"')

/-- What is reported of a literal: all of it, if it begins with the unwanted quote. -/
def report (style : QuoteStyle) (found : Match) : Option Finding :=
  let name := style.name
  if found.whole.letters.head? == some style.opposite.quote then
    some ⟨found.whole.start, found.whole.size, s!"Strings must use {name} quotes"⟩
  else none

def rule : Rule where
  toRuleInfo := info
  check document options := do
    let style ← options.quotes? info.id
    info.reportMatches stringLiteral (report style) document

end ScriptLint.Quotes
