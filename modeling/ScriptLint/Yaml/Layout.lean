import ScriptLint.Yaml.Token

/-!
# The layout of a YAML text

While a text is read from left to right, its layout is kept: the tokens read so far, the columns at
which the open block collections begin, and the places where a key may have begun. A key is
recognised only by the colon behind it. Then its token is put in where the key began, with the start
of a block mapping in front of it if the key is indented further than the open collections.

The floor is the least column of what belongs to the innermost block collection only: one more than
the column of the collection, and zero outside of all.
-/

namespace ScriptLint.Yaml

/-- A place where a key may have begun. -/
structure Candidate where
  /-- The number of tokens in front of the key. -/
  position : Nat
  line : Nat
  index : Nat
  column : Nat
  /-- Nothing but a key can stand here. -/
  isRequired : Bool
  deriving DecidableEq, Repr

/-- The layout of the text in front of a place. -/
structure Layout where
  cursor : Cursor
  tokens : Array Token := #[]
  floor : Nat := 0
  outerFloors : List Nat := []
  /-- The candidate of the innermost flow collection, or of the text outside of all. -/
  candidate : Option Candidate := none
  /-- The candidates around it, one for each open flow collection. -/
  outerCandidates : List (Option Candidate) := []
  /-- A key may begin here. -/
  allowsKey : Bool := true
  deriving Repr

namespace Layout

def inFlow (layout : Layout) : Bool := !layout.outerCandidates.isEmpty

def column (layout : Layout) : Nat := layout.cursor.column

def push (layout : Layout) (token : Token) : Layout :=
  { layout with tokens := layout.tokens.push token }

/-- Passes a number of characters, which are one token. -/
def pushIndicator (layout : Layout) (token : Token) (count : Nat) : Layout :=
  { layout.push token with cursor := layout.cursor.skip count }

/-- The layout with one more token in front of the token at a position. -/
def putAt (layout : Layout) (position : Nat) (token : Token) : Layout :=
  { layout with tokens := layout.tokens.insertIdxIfInBounds position token }

/-- Opens a block collection at a column, unless one is open there or further in. Its token is put
at a position. -/
def openBlock (layout : Layout) (token : Token) (position column : Nat) : Layout :=
  if layout.inFlow || column < layout.floor then layout
  else
    { layout.putAt position token with
      floor := column + 1, outerFloors := layout.floor :: layout.outerFloors }

/-- Closes the block collections with floors above a limit, innermost first. -/
def closeFloors (limit floor : Nat) : List Nat → Array Token → Nat × List Nat × Array Token
  | [], tokens => (floor, [], tokens)
  | outer :: floors, tokens =>
      if limit < floor then closeFloors limit outer floors (tokens.push .blockEnd)
      else (floor, outer :: floors, tokens)

/-- Closes the block collections with floors above a limit. Nothing closes in a flow collection. -/
def closeBlocks (layout : Layout) (limit : Nat) : Layout :=
  if layout.inFlow then layout
  else
    let (floor, outerFloors, tokens) :=
      closeFloors limit layout.floor layout.outerFloors layout.tokens
    { layout with floor, outerFloors, tokens }

/-- The candidate that remains when it can no longer be a key. A required one has to be. -/
def withdrawn? (candidate : Option Candidate) : Option (Option Candidate) :=
  if candidate.any (·.isRequired) then none else some none

/-- Withdraws the candidate of the innermost flow collection. -/
def withdrawCandidate (layout : Layout) : Option Layout := do
  some { layout with candidate := ← withdrawn? layout.candidate }

/-- Takes the place as a candidate if a key may begin here. Nothing but a key can stand at the
column of the innermost block collection. -/
def offerCandidate (layout : Layout) : Option Layout :=
  if !layout.allowsKey then some layout
  else
    let candidate : Candidate :=
      { position := layout.tokens.size
        line := layout.cursor.line
        index := layout.cursor.index
        column := layout.column
        isRequired := !layout.inFlow && layout.floor == layout.column + 1 }
    layout.withdrawCandidate.map fun layout => { layout with candidate := some candidate }

/-- The greatest number of bytes from the start of a key to its colon. -/
def keyLimit : Nat := 1024

/-- Whether a candidate is too far in front of a place: keys do not go over lines. -/
def Candidate.isStale (candidate : Candidate) (cursor : Cursor) : Bool :=
  candidate.line < cursor.line || candidate.index + keyLimit < cursor.index

/-- Withdraws the candidates that are too far in front of the place. -/
def withdrawStale (layout : Layout) : Option Layout := do
  let check (candidate : Option Candidate) : Option (Option Candidate) :=
    if candidate.any fun found => Candidate.isStale found layout.cursor then withdrawn? candidate
    else some candidate
  some { layout with
    candidate := ← check layout.candidate
    outerCandidates := ← layout.outerCandidates.mapM check }

end Layout

end ScriptLint.Yaml
