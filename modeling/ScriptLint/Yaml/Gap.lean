import ScriptLint.Yaml.Cursor

/-!
# Gaps in scalars

Between two words of a quoted or plain scalar stands a gap: blanks, or line breaks with blanks
around them. Blanks within a line count as they are. One line break counts as a space, of several
line breaks all but the first count, and blanks next to a break count for nothing.
-/

namespace ScriptLint.Yaml

/-- The gap between two words of a scalar. -/
structure Gap where
  /-- The gap has a line break, possibly one that counts for nothing. -/
  isBroken : Bool := false
  blanks : List Char := []
  firstBreak : List Char := []
  otherBreaks : List Char := []
  deriving DecidableEq, Repr

namespace Gap

/-- The gap behind a line break that counts for nothing. -/
def escapedBreak : Gap := { isBroken := true }

/-- What a gap counts for. -/
def letters (gap : Gap) : List Char :=
  if !gap.isBroken then gap.blanks
  else if gap.firstBreak ≠ ['\n'] then gap.firstBreak ++ gap.otherBreaks
  else if gap.otherBreaks.isEmpty then [' ']
  else gap.otherBreaks

def addBlank (gap : Gap) (blank : Char) : Gap :=
  if gap.isBroken then gap else { gap with blanks := gap.blanks ++ [blank] }

def addBreak (gap : Gap) (letters : List Char) : Gap :=
  if gap.isBroken then { gap with otherBreaks := gap.otherBreaks ++ letters }
  else { gap with isBroken := true, firstBreak := letters }

/-- Reads on in a gap. A tab behind a line break must not stand in front of the least column. Each
step passes a character, so as many steps as there are characters suffice. -/
def readOn (least : Nat) : Nat → Gap → Cursor → Option (Gap × Cursor)
  | 0, gap, cursor => some (gap, cursor)
  | steps + 1, gap, cursor =>
      match cursor.rest with
      | [] => some (gap, cursor)
      | letter :: _ =>
          if isBreak letter then
            let (letters, cursor) := cursor.readBreak
            readOn least steps (gap.addBreak letters) cursor
          else if !isBlank letter then some (gap, cursor)
          else if gap.isBroken && letter == '\t' && cursor.column < least then none
          else readOn least steps (gap.addBlank letter) (cursor.skip 1)

def read (least : Nat) (gap : Gap) (cursor : Cursor) : Option (Gap × Cursor) :=
  readOn least cursor.rest.length gap cursor

end Gap

end ScriptLint.Yaml
