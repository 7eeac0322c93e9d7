import ScriptLint.Yaml.Gap

/-!
# Plain scalars

A plain scalar has no quotes. It ends in front of a colon with white space behind it, a comment, the
marker of a document, a line that is not indented enough, and, in a flow collection, an indicator of
such a collection. White space at its end does not belong to it.
-/

namespace ScriptLint.Yaml.Plain

/-- An indicator of flow collections: a comma, a bracket or a brace. -/
def isFlowIndicator (letter : Char) : Bool :=
  letter == ',' || letter == '[' || letter == ']' || letter == '\x7b' || letter == '\x7d'

/-- Whether a colon may not stand in front of a character in a plain scalar of a flow collection. -/
def isAmbiguous (letter : Char) : Bool := isFlowIndicator letter || letter == '?'

/-- Reads a run without white space. The letters read so far come last first. -/
def readRun (inFlow : Bool) : Nat → List Char → Cursor → Option (List Char × Cursor)
  | 0, letters, cursor => some (letters.reverse, cursor)
  | steps + 1, letters, cursor =>
      match cursor.rest with
      | [] => some (letters.reverse, cursor)
      | letter :: rest =>
          if beginsWithSpace cursor.rest then some (letters.reverse, cursor)
          else if inFlow && letter == ':' && rest.head?.any isAmbiguous then none
          else if letter == ':' && beginsWithSpace rest then some (letters.reverse, cursor)
          else if inFlow && isFlowIndicator letter then some (letters.reverse, cursor)
          else readRun inFlow steps (letter :: letters) (cursor.skip 1)

/-- A plain scalar, whether line breaks stand between it and what follows, and the place behind
it. -/
structure Reading where
  letters : List Char
  isBroken : Bool
  cursor : Cursor

/-- Reads on behind the letters read so far and a gap. Each step passes a character, so as many
steps as there are characters suffice. -/
def readOn (inFlow : Bool) (floor : Nat) : Nat → List Char → Gap → Cursor → Option Reading
  | 0, letters, gap, cursor => some ⟨letters, gap.isBroken, cursor⟩
  | steps + 1, letters, gap, cursor =>
      if cursor.atDocumentMarker || cursor.rest.head? == some '#' then
        some ⟨letters, gap.isBroken, cursor⟩
      else do
        let (run, cursor) ← readRun inFlow cursor.rest.length [] cursor
        if run.isEmpty then some ⟨letters, gap.isBroken, cursor⟩
        else
          let letters := letters ++ gap.letters ++ run
          let (gap, cursor) ← ({} : Gap).read floor cursor
          if !inFlow && cursor.column < floor then
            some ⟨letters, gap.isBroken, cursor⟩
          else readOn inFlow floor steps letters gap cursor

/-- Reads a plain scalar. Outside of flow collections its lines begin at a least column. -/
def read (inFlow : Bool) (floor : Nat) (cursor : Cursor) : Option Reading :=
  readOn inFlow floor cursor.rest.length [] {} cursor

end ScriptLint.Yaml.Plain
