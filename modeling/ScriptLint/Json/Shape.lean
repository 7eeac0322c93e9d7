import ScriptLint.Json.Basic
import ScriptLint.Number.Shortest
import ScriptLint.Text.Quoted

/-!
# Expected shapes

Reading a JSON value as data of a known shape. A mismatch says what was found and what was expected
there. A record may be written as an object, whose unknown members are ignored, or as an array of
its fields in order.
-/

namespace ScriptLint.Json

inductive Mismatch where
  | wrongType (found : Json) (expected : String)
  | wrongValue (found : Json) (expected : String)
  | wrongLength (length : Nat) (expected : String)
  | missingField (name : String)
  | unknownVariant (name : String) (variants : List String)
  deriving Repr, Inhabited

def description : Json → String
  | null => "null"
  | bool true => "boolean `true`"
  | bool false => "boolean `false`"
  | number (.natural value) => s!"integer `{value}`"
  | number (.negative magnitude) => s!"integer `-{magnitude}`"
  | number (.real value) => "floating point `" ++ value.scientificText ++ "`"
  | string value => "string " ++ Text.quoted value
  | array _ => "sequence"
  | object _ => "map"

/-- A name between backticks. -/
def ticked (name : String) : String := "`" ++ name ++ "`"

def Mismatch.message : Mismatch → String
  | wrongType found expected => "invalid type: " ++ found.description ++ ", expected " ++ expected
  | wrongValue found expected => "invalid value: " ++ found.description ++ ", expected " ++ expected
  | wrongLength length expected => s!"invalid length {length}, expected {expected}"
  | missingField name => "missing field " ++ ticked name
  | unknownVariant name variants =>
      "unknown variant " ++ ticked name ++ ", expected one of " ++
        ", ".intercalate (variants.map ticked)

abbrev Shaped := Except Mismatch

/-- Reads a natural number of 64 bits. -/
def asNatural : Json → Shaped Nat
  | number (.natural value) => .ok value
  | found@(number (.negative _)) => .error (.wrongValue found "usize")
  | found => .error (.wrongType found "usize")

def asText : Json → Shaped String
  | string value => .ok value
  | found => .error (.wrongType found "a string")

/-- Reads a list whose elements have a shape. -/
def asList {α : Type} (asElement : Json → Shaped α) : Json → Shaped (List α)
  | array elements => elements.mapM asElement
  | found => .error (.wrongType found "a sequence")

def asMembers : Json → Shaped (List (String × Json))
  | object members => .ok members
  | found => .error (.wrongType found "a map")

/-- Reads a value or nothing, which is written as null. -/
def asOptional {α : Type} (asValue : Json → Shaped α) : Json → Shaped (Option α)
  | null => .ok none
  | found => (asValue found).map some

def readMember {α : Type} (members : List (String × Json)) (name : String)
    (asValue : Json → Shaped α) : Shaped (Option α) :=
  match Keyed.find? members name with
  | some value => (asValue value).map some
  | none => .ok none

def require {α : Type} (name : String) : Option α → Shaped α
  | some value => .ok value
  | none => .error (.missingField name)

/-- Reads the field of a record that is written as an array, if the array is long enough. -/
def readField {α : Type} (elements : List Json) (index : Nat) (asValue : Json → Shaped α) :
    Shaped (Option α) :=
  match elements[index]? with
  | some value => (asValue value).map some
  | none => .ok none

/-- The value of a field that has to be there in a record of the expected length. -/
def requireField {α : Type} (index : Nat) (expected : String) : Option α → Shaped α
  | some value => .ok value
  | none => .error (.wrongLength index expected)

/-- Accepts an array that has no more elements than the record has fields. -/
def endOfRecord (elements : List Json) (fields : Nat) : Shaped Unit :=
  if elements.length ≤ fields then .ok ()
  else .error (.wrongLength elements.length "fewer elements in array")

end ScriptLint.Json
