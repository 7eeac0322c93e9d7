import ScriptLint.Yaml.Stream

/-!
# YAML nodes

A document is one node: a scalar, a sequence, a mapping, or an alias of a node with an anchor. What
a text leaves out between two indicators is an empty plain scalar. The anchors of a document are
numbered: the number of an anchor is the count of the names in use in front of it. An alias has the
number that its name had last, and it stands for the last node of that number.
-/

namespace ScriptLint.Yaml

abbrev Tag := List Octet

/-- What stands in front of a node: the number of its anchor and its tag. -/
structure Properties where
  anchor : Option Nat := none
  tag : Option Tag := none
  deriving DecidableEq, Repr, Inhabited

inductive Node where
  | alias (anchor : Nat)
  | scalar (properties : Properties) (isPlain : Bool) (letters : List Char)
  | sequence (properties : Properties) (items : List Node)
  | mapping (properties : Properties) (members : List (Node × Node))
  deriving Repr, Inhabited

/-- The node of what a text leaves out. -/
def Node.empty : Node := .scalar {} true []

/-- What is known while the tokens of a document are read: the tokens left, the numbers of the
anchors by name, the latest first, and the handles. -/
structure Assembly where
  tokens : List Token
  anchors : List (List Char × Nat) := []
  handles : List (List Char × List Octet) := []

/-- A step that reads tokens or fails. -/
abbrev Reader := StateT Assembly Option

namespace Reader

def peek : Reader (Option Token) := do return (← get).tokens.head?

def advance : Reader Unit := modify fun state => { state with tokens := state.tokens.tail }

/-- Passes a token if it is the next one, and says so. -/
def passed (token : Token) : Reader Bool := do
  if (← peek) = some token then
    advance
    return true
  else return false

/-- Passes a token, which has to be the next one. -/
def expect (token : Token) : Reader Unit := do
  if !(← passed token) then failure

def numberOf (name : List Char) : Reader Nat := do
  match (← get).anchors.lookup name with
  | some number => return number
  | none => failure

def register (name : List Char) : Reader Nat := do
  let number := (← get).anchors.length
  modify fun state => { state with
    anchors := (name, number) :: state.anchors.filter fun entry => entry.1 != name }
  return number

/-- The tag that a shorthand stands for. -/
def resolve (tag : TagShorthand) : Reader Tag := do
  if tag.handle.isEmpty then return tag.suffix
  else
    match (← get).handles.lookup tag.handle with
    | some beginning => return beginning ++ tag.suffix
    | none => failure

def readAnchor : Reader (Option (List Char)) := do
  match ← peek with
  | some (.anchor name) =>
      advance
      return some name
  | _ => return none

def readTag : Reader (Option Tag) := do
  match ← peek with
  | some (.tag tag) =>
      advance
      return some (← resolve tag)
  | _ => return none

/-- Reads an anchor and a tag in either order. -/
def readProperties : Reader Properties := do
  let first ← readAnchor
  let tag ← readTag
  let second ← if first.isNone then readAnchor else pure none
  match first.or second with
  | some name => return { anchor := some (← register name), tag }
  | none => return { tag }

end Reader

/-- Where a node stands: in a flow collection, as an entry of a block sequence or the whole
document, or in a block mapping, where the entries of a sequence need not be indented. -/
inductive Place where
  | flow
  | block
  | member
  deriving DecidableEq, Repr

open Reader

/-- Whether a node is left out in a block collection: the next token begins or ends an entry. -/
def isBlockGap (place : Place) (token : Option Token) : Bool :=
  token == some .blockEnd ||
    match place with
    | .block => token == some .blockEntry
    | _ => token == some .key || token == some .value

mutual

/-- Reads a node. Each step passes a token or descends to one that does, so a few steps for each
token suffice. -/
def readNode : Nat → Place → Reader Node
  | 0, _ => failure
  | steps + 1, place => do
      match ← peek with
      | some (.alias name) =>
          advance
          return .alias (← numberOf name)
      | _ =>
          let properties ← readProperties
          match ← peek, place with
          | some .blockEntry, .member =>
              return .sequence properties (← readLooseItems steps)
          | some (.scalar isPlain letters), _ =>
              advance
              return .scalar properties isPlain letters
          | some .flowSequence, _ =>
              advance
              return .sequence properties (← readFlowItems steps true)
          | some .flowMapping, _ =>
              advance
              return .mapping properties (← readFlowMembers steps true)
          | some .blockSequence, .block | some .blockSequence, .member =>
              advance
              return .sequence properties (← readItems steps)
          | some .blockMapping, .block | some .blockMapping, .member =>
              advance
              return .mapping properties (← readMembers steps)
          | _, _ =>
              if properties = {} then failure else return .scalar properties true []

/-- Reads the entries of a block sequence up to and with its end. -/
def readItems : Nat → Reader (List Node)
  | 0 => failure
  | steps + 1 => do
      if ← passed .blockEntry then
        let item ←
          if isBlockGap .block (← peek) then pure Node.empty else readNode steps .block
        return item :: (← readItems steps)
      else
        expect .blockEnd
        return []

/-- Reads the entries of a sequence that is not indented. Nothing marks its end. -/
def readLooseItems : Nat → Reader (List Node)
  | 0 => failure
  | steps + 1 => do
      if ← passed .blockEntry then
        let next ← peek
        let item ←
          if isBlockGap .block next || isBlockGap .member next then pure Node.empty
          else readNode steps .block
        return item :: (← readLooseItems steps)
      else return []

/-- Reads the members of a block mapping up to and with its end. -/
def readMembers : Nat → Reader (List (Node × Node))
  | 0 => failure
  | steps + 1 => do
      if ← passed .key then
        let key ← readMemberPart steps
        let value ← if ← passed .value then readMemberPart steps else pure Node.empty
        return (key, value) :: (← readMembers steps)
      else
        expect .blockEnd
        return []

/-- Reads the key or the value of a member of a block mapping behind its indicator. -/
def readMemberPart : Nat → Reader Node
  | 0 => failure
  | steps + 1 => do
      if isBlockGap .member (← peek) then return Node.empty else readNode steps .member

/-- Reads the entries of a flow sequence up to and with its closing bracket. An entry behind a key
indicator is a mapping with one member. -/
def readFlowItems : Nat → Bool → Reader (List Node)
  | 0, _ => failure
  | steps + 1, isFirst => do
      if ← passed .flowSequenceEnd then return []
      else
        if !isFirst then expect .flowEntry
        if ← passed .flowSequenceEnd then return []
        else if ← passed .key then
          let member ← readPair steps
          return .mapping {} [member] :: (← readFlowItems steps false)
        else
          let item ← readNode steps .flow
          return item :: (← readFlowItems steps false)

/-- Reads the single member of a mapping in a flow sequence. A key that is left out takes the token
behind it along. -/
def readPair : Nat → Reader (Node × Node)
  | 0 => failure
  | steps + 1 => do
      let next ← peek
      let key ←
        if next = some .value ∨ next = some .flowEntry ∨ next = some .flowSequenceEnd then
          advance
          pure Node.empty
        else readNode steps .flow
      let value ← if ← passed .value then readFlowPart steps .flowSequenceEnd else pure Node.empty
      return (key, value)

def readFlowPart : Nat → Token → Reader Node
  | 0, _ => failure
  | steps + 1, stop => do
      let next ← peek
      let isGap :=
        next == some .flowEntry || next == some stop ||
          (next == some .value && stop == .flowMappingEnd)
      if isGap then return Node.empty
      else readNode steps .flow

/-- Reads the members of a flow mapping up to and with its closing brace. A member without a key
indicator has no value. -/
def readFlowMembers : Nat → Bool → Reader (List (Node × Node))
  | 0, _ => failure
  | steps + 1, isFirst => do
      if ← passed .flowMappingEnd then return []
      else
        if !isFirst then expect .flowEntry
        if ← passed .flowMappingEnd then return []
        else if ← passed .key then
          let key ← readFlowPart steps .flowMappingEnd
          let value ←
            if ← passed .value then readFlowPart steps .flowMappingEnd else pure Node.empty
          return (key, value) :: (← readFlowMembers steps false)
        else
          let key ← readNode steps .flow
          return (key, Node.empty) :: (← readFlowMembers steps false)

end

/-- The handles that every document has. -/
def defaultHandles : List (List Char × List Octet) :=
  [(['!'], octets ['!']), (['!', '!'], octets "tag:yaml.org,2002:".toList)]

/-- Reads the directives in front of a document. A version is given at most once, a handle is mapped
at most once, and the version has to be one of the two that are known. -/
def readDirectives : Nat → Bool → Reader Unit
  | 0, _ => failure
  | steps + 1, hasVersion => do
      match ← peek with
      | some (.version major minor) =>
          if hasVersion ∨ major ≠ 1 ∨ (minor ≠ 1 ∧ minor ≠ 2) then failure
          advance
          readDirectives steps true
      | some (.handle handle beginning) =>
          if ((← get).handles.lookup handle).isSome then failure
          modify fun state => { state with handles := (handle, beginning) :: state.handles }
          advance
          readDirectives steps hasVersion
      | _ => modify fun state => { state with handles := state.handles ++ defaultHandles }

/-- Whether a document without a node ends in front of a token. -/
def endsDocument (token : Option Token) : Bool :=
  token.all fun found =>
    found.isDirective || found == .documentStart || found == .documentEnd

def readDocument (steps : Nat) : Reader (Option Node) := do
  let next ← peek
  if next.isNone then return none
  else
    readDirectives steps false
    let node ←
      if next.any fun token => token.isDirective || token == .documentStart then do
        expect .documentStart
        if endsDocument (← peek) then pure Node.empty else readNode steps .block
      else readNode steps .block
    modify fun state => { state with tokens := state.tokens.dropWhile (· == .documentEnd) }
    if (← peek).isSome then failure
    return some node

/-- The node of a text, or nothing for a text without a document. Fails unless the text can be read
and has no more than one document. -/
def document? (letters : List Char) : Option (Option Node) := do
  let tokens ← tokens? letters
  (readDocument (3 * tokens.length + 3)).run' { tokens }

end ScriptLint.Yaml
