import ScriptLint.Yaml.Node
import ScriptLint.Yaml.Resolution

/-!
# The value of a YAML document

A document stands for a JSON value. An alias stands for the value of its node, and following an
alias counts against a budget that grows with the document, so that a short document cannot grow out
of hand. Collections may be nested 128 deep. The key of a member is the text of a scalar, whatever
that would stand for elsewhere, and of two members with one key the later wins. A tag of the core
types forces the type of a scalar, and a tag of the document's own makes a node unreadable.
-/

namespace ScriptLint.Yaml

def coreTag (name : String) : Tag := octets ("tag:yaml.org,2002:" ++ name).toList

def isEncodedText (octets : List Octet) : Bool :=
  (String.fromUTF8? ⟨(octets.map UInt8.ofNat).toArray⟩).isSome

def beginsWithMark (tag : Tag) : Bool := tag.head? == some '!'.toNat

def isOwnTag (tag : Tag) : Bool := beginsWithMark tag && isEncodedText tag

def representScalar (tag : Option Tag) (isPlain : Bool) (letters : List Char) : Represented :=
  let text : Json := .string (String.ofList letters)
  match tag with
  | none => if isPlain then representPlain letters else some text
  | some tag =>
      if isOwnTag tag then none
      else if tag = coreTag "bool" then (truth? letters).map Json.bool
      else if tag = coreTag "int" then
        (integer? letters).bind fun (negative, magnitude) => representInteger negative magnitude
      else if tag = coreTag "float" then real? letters
      else if tag = coreTag "null" then if isNull letters then some .null else none
      else if beginsWithMark tag && isPlain then representPlain letters
      else some text

mutual

/-- The nodes with an anchor, in the order in which they begin. -/
def Node.anchored : Node → List (Nat × Node)
  | .alias _ => []
  | node@(.scalar properties _ _) => (properties.anchor.map fun number => (number, node)).toList
  | node@(.sequence properties items) =>
      (properties.anchor.map fun number => (number, node)).toList ++ anchoredItems items
  | node@(.mapping properties members) =>
      (properties.anchor.map fun number => (number, node)).toList ++ anchoredMembers members

def anchoredItems : List Node → List (Nat × Node)
  | [] => []
  | item :: items => item.anchored ++ anchoredItems items

def anchoredMembers : List (Node × Node) → List (Nat × Node)
  | [] => []
  | (key, value) :: members => key.anchored ++ value.anchored ++ anchoredMembers members

end

mutual

/-- The size of a node: collections count for their start and their end. -/
def Node.weight : Node → Nat
  | .alias _ => 1
  | .scalar _ _ _ => 1
  | .sequence _ items => 2 + weightOfItems items
  | .mapping _ members => 2 + weightOfMembers members

def weightOfItems : List Node → Nat
  | [] => 0
  | item :: items => item.weight + weightOfItems items

def weightOfMembers : List (Node × Node) → Nat
  | [] => 0
  | (key, value) :: members => key.weight + value.weight + weightOfMembers members

end

/-- How many aliases may be followed for each unit of the size of a document. -/
def aliasBudget : Nat := 100

/-- How deep collections may be nested. -/
def depthLimit : Nat := 128

/-- A step that may follow aliases, as many as are left, or fails. -/
abbrev Following := StateT Nat Option

abbrev Anchors := List (Nat × Node)

/-- The node that a node stands for. -/
def follow (anchors : Anchors) (node : Node) : Following Node := do
  match node with
  | .alias number =>
      match ← get with
      | 0 => failure
      | left + 1 =>
          set left
          match anchors.reverse.lookup number with
          | some target => return target
          | none => failure
  | _ => return node

def keyText (anchors : Anchors) (node : Node) : Following String := do
  match ← follow anchors node with
  | .scalar _ _ letters => return String.ofList letters
  | _ => failure

/-- The value of a node in which collections may be nested the given number of levels. -/
def represent (anchors : Anchors) (levels : Nat) (node : Node) : Following Json := do
  match ← follow anchors node with
  | .alias _ => failure
  | .scalar properties isPlain letters =>
      StateT.lift (representScalar properties.tag isPlain letters)
  | .sequence properties items =>
      if properties.tag.any isOwnTag then failure
      else
        match levels with
        | 0 => failure
        | inner + 1 => return .array (← items.mapM (represent anchors inner))
  | .mapping properties members =>
      if properties.tag.any isOwnTag then failure
      else
        match levels with
        | 0 => failure
        | inner + 1 =>
            let members ← members.mapM fun member => do
              let key ← keyText anchors member.1
              return (key, ← represent anchors inner member.2)
            return .ofMembers members

/-- The value of a text. A text without a document is null. -/
def parse? (text : String) : Option Json := do
  match ← document? text.toList with
  | none => some .null
  | some node =>
      (represent node.anchored depthLimit node).run' (aliasBudget * node.weight)

end ScriptLint.Yaml
