import ScriptLint.Yaml.Block
import ScriptLint.Yaml.Directive
import ScriptLint.Yaml.Layout
import ScriptLint.Yaml.Plain
import ScriptLint.Yaml.Quoted

/-!
# The tokens of a YAML text

A text is read token by token, each with the change that it makes to the layout. In front of a token
white space and comments are passed, candidates that are too far away are withdrawn, and the block
collections that the place is not indented for are closed. What cannot be read makes the whole text
unreadable, so there is no more than one way to fail.
-/

namespace ScriptLint.Yaml

namespace Layout

/-- Whether a blank may stand in front of a token here. A tab must not stand where a key may begin,
except in a flow collection. -/
def allowsBlank (layout : Layout) (letter : Char) : Bool :=
  letter == ' ' || (letter == '\t' && (layout.inFlow || !layout.allowsKey))

/-- Passes white space, comments and the byte order marks at the start of lines. A key may begin on
a new line outside of flow collections. Each step passes a line break, so as many steps as there are
characters suffice. -/
def skipSpace : Nat → Layout → Layout
  | 0, layout => layout
  | steps + 1, layout =>
      let cursor := (layout.cursor.skipMark.skipWhile layout.allowsBlank).skipComment
      if cursor.rest.head?.any isBreak then
        skipSpace steps { layout with
          cursor := cursor.readBreak.2, allowsKey := layout.allowsKey || !layout.inFlow }
      else { layout with cursor }

/-- Ends the block collections in front of a directive, the marker of a document or the end. No key
can begin behind. -/
def endBlocks (layout : Layout) : Option Layout :=
  (layout.closeBlocks 0).withdrawCandidate.map fun layout => { layout with allowsKey := false }

def readMarker (layout : Layout) (token : Token) : Option Layout :=
  layout.endBlocks.map fun layout => layout.pushIndicator token 3

def readDirectiveLine (layout : Layout) : Option Layout := do
  let layout ← layout.endBlocks
  let (token, cursor) ← readDirective (layout.cursor.skip 1)
  some { layout.push token with cursor }

/-- Opens a flow collection, which may itself be a key and may begin with one. -/
def openFlow (layout : Layout) (token : Token) : Option Layout := do
  let layout ← layout.offerCandidate
  some { layout.pushIndicator token 1 with
    candidate := none
    outerCandidates := layout.candidate :: layout.outerCandidates
    allowsKey := true }

def closeFlow (layout : Layout) (token : Token) : Option Layout := do
  let layout ← layout.withdrawCandidate
  let layout := { layout.pushIndicator token 1 with allowsKey := false }
  match layout.outerCandidates with
  | [] => some layout
  | candidate :: outerCandidates => some { layout with candidate, outerCandidates }

def readFlowEntry (layout : Layout) : Option Layout := do
  let layout ← layout.withdrawCandidate
  some { layout.pushIndicator .flowEntry 1 with allowsKey := true }

/-- Opens a block collection here for an indicator, which can stand only where a key may begin. In a
flow collection there is nothing to open. -/
def openHere (layout : Layout) (token : Token) : Option Layout :=
  if layout.inFlow then some layout
  else if !layout.allowsKey then none
  else some (layout.openBlock token layout.tokens.size layout.column)

/-- Reads the hyphen in front of an entry of a block sequence. -/
def readBlockEntry (layout : Layout) : Option Layout := do
  let layout ← (← layout.openHere .blockSequence).withdrawCandidate
  some { layout.pushIndicator .blockEntry 1 with allowsKey := true }

/-- Reads the question mark in front of a key. -/
def readKey (layout : Layout) : Option Layout := do
  let layout ← (← layout.openHere .blockMapping).withdrawCandidate
  some { layout.pushIndicator .key 1 with allowsKey := !layout.inFlow }

/-- Reads the colon in front of a value. The candidate becomes a key; without one the value belongs
to a key behind a question mark, or to none. -/
def readValue (layout : Layout) : Option Layout := do
  match layout.candidate with
  | some found =>
      let layout := layout.putAt found.position .key
      let layout := layout.openBlock .blockMapping found.position found.column
      some { layout.pushIndicator .value 1 with candidate := none, allowsKey := false }
  | none =>
      let layout ← layout.openHere .blockMapping
      some { layout.pushIndicator .value 1 with allowsKey := !layout.inFlow }

/-- A character that may follow the name of an alias or an anchor. -/
def mayFollowName (letters : List Char) : Bool :=
  beginsWithSpace letters ||
    letters.head?.any fun letter => "?:,]\x7d%@\x60".toList.contains letter

/-- Reads the name of an alias or an anchor behind its indicator. -/
def readName (layout : Layout) (token : List Char → Token) : Option Layout := do
  let layout ← layout.offerCandidate
  let (name, cursor) := (layout.cursor.skip 1).takeWhile isNameLetter
  if name.isEmpty || !mayFollowName cursor.rest then none
  else some { layout.push (token name) with cursor, allowsKey := false }

def readNodeTag (layout : Layout) : Option Layout := do
  let layout ← layout.offerCandidate
  let (tag, cursor) ← readTag layout.inFlow layout.cursor
  some { layout.push (.tag tag) with cursor, allowsKey := false }

/-- Reads a block scalar, behind which a key may begin. -/
def readBlockScalar (layout : Layout) (folded : Bool) : Option Layout := do
  let layout ← layout.withdrawCandidate
  let (letters, cursor) ← Block.read folded layout.floor (layout.cursor.skip 1)
  some { layout.push (.scalar false letters) with cursor, allowsKey := true }

def readQuoted (layout : Layout) (quote : Char) : Option Layout := do
  let layout ← layout.offerCandidate
  let (letters, cursor) ← Quoted.read quote layout.cursor
  some { layout.push (.scalar false letters) with cursor, allowsKey := false }

/-- Reads a plain scalar. A key may begin behind it if a line break follows it. -/
def readPlain (layout : Layout) : Option Layout := do
  let layout ← layout.offerCandidate
  let reading ← Plain.read layout.inFlow layout.floor layout.cursor
  some { layout.push (.scalar true reading.letters) with
    cursor := reading.cursor, allowsKey := reading.isBroken }

/-- A character that a plain scalar never begins with. -/
def isIndicator (letter : Char) : Bool := ",[]\x7b\x7d#&*!|>'\"%@\x60".toList.contains letter

/-- Whether a plain scalar may begin with a text that has a character. A hyphen needs something
other than a blank behind it; a question mark and a colon need more than white space behind them and
do not begin a plain scalar in a flow collection. -/
def mayBeginPlain (inFlow : Bool) (letter : Char) (rest : List Char) : Bool :=
  if letter == '-' then !rest.head?.any isBlank
  else if letter == '?' || letter == ':' then !inFlow && !beginsWithSpace rest
  else !isIndicator letter && !beginsWithSpace (letter :: rest)

/-- Reads the token that begins with a character, behind which the rest of the text follows. -/
def readToken (layout : Layout) (letter : Char) (rest : List Char) : Option Layout :=
  let isSpaced := beginsWithSpace rest
  if layout.column == 0 && letter == '%' then layout.readDirectiveLine
  else if layout.cursor.atDocumentStart then layout.readMarker .documentStart
  else if layout.cursor.atDocumentEnd then layout.readMarker .documentEnd
  else
    match letter with
    | '[' => layout.openFlow .flowSequence
    | '\x7b' => layout.openFlow .flowMapping
    | ']' => layout.closeFlow .flowSequenceEnd
    | '\x7d' => layout.closeFlow .flowMappingEnd
    | ',' => layout.readFlowEntry
    | '*' => layout.readName .alias
    | '&' => layout.readName .anchor
    | '!' => layout.readNodeTag
    | '\'' | '"' => layout.readQuoted letter
    | _ =>
        if letter == '-' && isSpaced then layout.readBlockEntry
        else if letter == '?' && (layout.inFlow || isSpaced) then layout.readKey
        else if letter == ':' && (layout.inFlow || isSpaced) then layout.readValue
        else if letter == '|' && !layout.inFlow then layout.readBlockScalar false
        else if letter == '>' && !layout.inFlow then layout.readBlockScalar true
        else if mayBeginPlain layout.inFlow letter rest then layout.readPlain
        else none

/-- Reads the rest of a text. Each step passes a character, so one step more than there are
characters suffices. -/
def readTokens : Nat → Layout → Option (Array Token)
  | 0, _ => none
  | steps + 1, layout => do
      let layout ← (layout.skipSpace (layout.cursor.rest.length + 1)).withdrawStale
      let layout := layout.closeBlocks (layout.column + 1)
      match layout.cursor.rest with
      | [] => layout.endBlocks.map (·.tokens)
      | letter :: rest => readTokens steps (← layout.readToken letter rest)

end Layout

def tokens? (letters : List Char) : Option (List Token) :=
  if letters.all isPermitted then
    (Layout.readTokens (letters.length + 1) { cursor := { rest := letters } }).map Array.toList
  else none

end ScriptLint.Yaml
