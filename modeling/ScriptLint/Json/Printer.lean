import ScriptLint.Json.Basic
import ScriptLint.Number.Shortest
import ScriptLint.Text.Quoted

/-!
# Writing JSON

The compact form has no white space. The spread form puts every element and member on a line of its
own, two spaces deeper than its bracket, and keeps empty brackets together. Integers are written as
integers, other numbers by the shortest decimal.
-/

namespace ScriptLint

def JsonNumber.text : JsonNumber → String
  | natural value => toString value
  | negative magnitude => "-" ++ toString magnitude
  | real value => value.scientificText

namespace Json

def commaSeparated (pieces : List String) : String := ",".intercalate pieces

def compact : Json → String
  | null => "null"
  | bool value => if value then "true" else "false"
  | number value => value.text
  | string value => Text.jsonQuoted value
  | array elements =>
      "[" ++ commaSeparated (elements.attach.map fun ⟨element, _⟩ => compact element) ++ "]"
  | object members =>
      "\x7b" ++
        commaSeparated (members.attach.map fun ⟨member, _⟩ =>
          Text.jsonQuoted member.1 ++ ":" ++ compact member.2) ++ "\x7d"
termination_by value => sizeOf value
decreasing_by
  all_goals
    first
      | decreasing_tactic
      | (rename_i belongs
         have smaller := List.sizeOf_lt_of_mem belongs
         cases member
         simp_all
         omega)

def lineBreak (depth : Nat) : String := "\n" ++ String.ofList (List.replicate (2 * depth) ' ')

/-- Lines between two brackets, or the brackets alone if there is no line. -/
def bracketed (opening closing : String) (depth : Nat) (lines : List String) : String :=
  if lines.isEmpty then opening ++ closing
  else
    opening ++ lineBreak (depth + 1) ++ ("," ++ lineBreak (depth + 1)).intercalate lines ++
      lineBreak depth ++ closing

/-- The value spread over lines, its first line at the given depth. -/
def spread (depth : Nat) : Json → String
  | array elements =>
      bracketed "[" "]" depth (elements.attach.map fun ⟨element, _⟩ => spread (depth + 1) element)
  | object members =>
      bracketed "\x7b" "\x7d" depth (members.attach.map fun ⟨member, _⟩ =>
        Text.jsonQuoted member.1 ++ ": " ++ spread (depth + 1) member.2)
  | value => compact value
termination_by value => sizeOf value
decreasing_by
  all_goals
    first
      | decreasing_tactic
      | (rename_i belongs
         have smaller := List.sizeOf_lt_of_mem belongs
         cases member
         simp_all
         omega)

end Json

end ScriptLint
