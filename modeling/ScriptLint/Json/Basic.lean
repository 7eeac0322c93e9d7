import ScriptLint.Number.Binary64
import ScriptLint.Keyed

/-!
# JSON values

Numbers keep how they were written: an integer stays an integer, any other number is a binary64
number. A document that is read has the members of an object sorted by name, each name once; a
record that is written has them in the order of its fields.
-/

namespace ScriptLint

/-- A JSON number: an integer within 64 bits, or a binary64 number. -/
inductive JsonNumber where
  | natural (value : Nat)
  /-- The number `-magnitude`. -/
  | negative (magnitude : Nat)
  | real (value : Binary64)
  deriving DecidableEq, Repr, Inhabited

def JsonNumber.toBinary64 : JsonNumber → Binary64
  | natural value => .ofNat false value
  | negative magnitude => .ofNat true magnitude
  | real value => value

inductive Json where
  | null
  | bool (value : Bool)
  | number (value : JsonNumber)
  | string (value : String)
  | array (elements : List Json)
  | object (members : List (String × Json))
  deriving Repr, Inhabited

namespace Json

/-- The object with these members; of two members with one name the later wins. -/
def ofMembers (members : List (String × Json)) : Json := object (Keyed.ofList members)

def nat (value : Nat) : Json := number (.natural value)

def member? (value : Json) (name : String) : Option Json :=
  match value with
  | object members => Keyed.find? members name
  | _ => none

end Json

end ScriptLint
