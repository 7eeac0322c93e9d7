import ScriptLint.Json.Parser
import ScriptLint.Proofs.Keyed

/-!
# Parsed values are sorted

However the members of an object are written, the parser puts them in the order of their names and
keeps one of those that share a name. So every object in a parsed value is sorted.
-/

namespace ScriptLint.Json

/-- The members of every object in the value stand in the order of their names, none of them there
twice. -/
inductive IsSorted : Json → Prop
  | null : IsSorted .null
  | bool (value : Bool) : IsSorted (.bool value)
  | number (value : JsonNumber) : IsSorted (.number value)
  | string (value : String) : IsSorted (.string value)
  | array (elements : List Json) (each : ∀ element ∈ elements, IsSorted element) :
      IsSorted (.array elements)
  | object (members : List (String × Json)) (ascending : Keyed.IsAscending members)
      (each : ∀ member ∈ members, IsSorted member.2) : IsSorted (.object members)

namespace IsSorted

variable {members : List (String × Json)}

theorem ascending_of_object (sorted : IsSorted (.object members)) : Keyed.IsAscending members := by
  cases sorted with
  | object _ ascending _ => exact ascending

theorem of_find? {name : String} {value : Json} (sorted : IsSorted (.object members))
    (found : Keyed.find? members name = some value) : value.IsSorted := by
  cases sorted with
  | object _ _ each => exact each _ (Keyed.mem_of_find? found)

theorem ofMembers (each : ∀ member ∈ members, member.2.IsSorted) :
    (Json.ofMembers members).IsSorted :=
  .object _ (Keyed.isAscending_ofList members) fun member found =>
    each member (Keyed.mem_of_mem_ofList found)

end IsSorted

/-! ## What readers return -/

/-- Whatever the reader returns has the property. -/
def Gives {α : Type} (holds : α → Prop) (reading : Reading (α × Cursor)) : Prop :=
  ∀ result, reading = .ok result → holds result.1

section Gives

variable {α β : Type} {holds : α → Prop} {cursor : Cursor}

theorem gives_refuse (fault : Fault) : Gives holds (cursor.refuse fault) := nofun

theorem gives_refuseNext (fault : Fault) : Gives holds (cursor.refuseNext fault) := nofun

theorem gives_ok {value : α} (valid : holds value) : Gives holds (.ok (value, cursor)) := by
  intro result same
  cases same
  exact valid

theorem Gives.bind {holdsFirst : β → Prop} {reading : Reading (β × Cursor)}
    {next : β × Cursor → Reading (α × Cursor)} (first : Gives holdsFirst reading)
    (further : ∀ value, holdsFirst value.1 → Gives holds (next value)) :
    Gives holds (reading >>= next) := by
  cases outcome : reading with
  | error refusal => exact nofun
  | ok value => exact further value (first value outcome)

theorem gives_bind {reading : Reading (β × Cursor)} {next : β × Cursor → Reading (α × Cursor)}
    (further : ∀ value, Gives holds (next value)) : Gives holds (reading >>= next) := by
  have anything : Gives (fun _ => True) reading := fun _ _ => trivial
  exact anything.bind fun value _ => further value

theorem gives_ite {condition : Prop} [Decidable condition] {first second : Reading (α × Cursor)}
    (one : Gives holds first) (other : Gives holds second) :
    Gives holds (if condition then first else second) := by
  split
  · exact one
  · exact other

end Gives

variable {cursor : Cursor}

theorem gives_readWord {holds : Json → Prop} {value : Json} (valid : holds value)
    (letters : List Char) : Gives holds (readWord value letters cursor) := by
  induction letters generalizing cursor with
  | nil => exact gives_ok valid
  | cons expected letters inductionHypothesis =>
      unfold readWord
      split
      · exact gives_refuse _
      · exact gives_ite inductionHypothesis (gives_refuseNext _)

theorem gives_realOf (negative : Bool) (significand : Nat) (exponent : Int) :
    Gives IsSorted (realOf negative significand exponent cursor) := by
  unfold realOf
  split
  · exact gives_ok (.number _)
  · exact gives_refuse _

theorem gives_readExponent (negative : Bool) (significand : Nat) (scale : Int) :
    Gives IsSorted (readExponent negative significand scale cursor) := by
  unfold readExponent
  dsimp only
  split
  · exact gives_refuse _
  · exact gives_refuseNext _
  · split
    · exact gives_realOf _ _ _
    · exact gives_ite (gives_refuse _) (gives_ok (.number _))

theorem gives_readScale (negative : Bool) (significand : Nat) (scale : Int) :
    Gives IsSorted (readScale negative significand scale cursor) := by
  unfold readScale
  split
  · exact gives_readExponent _ _ _
  · exact gives_readExponent _ _ _
  · exact gives_realOf _ _ _

theorem gives_readDecimals (negative : Bool) (significand : Nat) (scale : Int) :
    Gives IsSorted (readDecimals negative significand scale cursor) := by
  unfold readDecimals
  dsimp only
  split
  · exact gives_refuseNext _
  · exact gives_refuseNext _
  · exact gives_readScale _ _ _

theorem gives_readNumber (negative : Bool) : Gives IsSorted (readNumber negative cursor) := by
  unfold readNumber
  dsimp only
  split
  · exact gives_refuse _
  · exact gives_refuseNext _
  · exact gives_refuseNext _
  · split
    · exact gives_readDecimals _ _ _
    · exact gives_readExponent _ _ _
    · exact gives_readExponent _ _ _
    · exact gives_ite (gives_realOf _ _ _)
        (gives_ite (gives_ok (.number _)) (gives_ite (gives_ok (.number _)) (gives_ok (.number _))))

/-! ## Arrays and objects -/

variable {readOne : Cursor → Reading (Json × Cursor)}

theorem gives_readElements (one : ∀ cursor, Gives IsSorted (readOne cursor)) (steps : Nat)
    {elements : List Json} (each : ∀ element ∈ elements, element.IsSorted) :
    Gives (fun found => ∀ element ∈ found, IsSorted element)
      (readElements readOne steps elements cursor) := by
  induction steps generalizing elements cursor with
  | zero => exact gives_refuse _
  | succ steps inductionHypothesis =>
      unfold readElements
      extract_lets cursor proceed
      have proceeds (next : Cursor) :
          Gives (fun found => ∀ element ∈ found, IsSorted element) (proceed next) :=
        (one next).bind fun read sorted =>
          inductionHypothesis (List.forall_mem_cons.mpr ⟨sorted, each⟩)
      split
      · exact gives_refuseNext _
      · exact gives_ok fun element member => each element (List.mem_reverse.mp member)
      · split
        · exact proceeds _
        · split
          · exact gives_refuseNext _
          · split
            · exact gives_refuseNext _
            · exact gives_refuseNext _
            · exact proceeds _

theorem gives_readMembers (one : ∀ cursor, Gives IsSorted (readOne cursor)) (steps : Nat)
    {members : List (String × Json)} (each : ∀ member ∈ members, member.2.IsSorted) :
    Gives (fun found : List (String × Json) => ∀ member ∈ found, IsSorted member.2)
      (readMembers readOne steps members cursor) := by
  induction steps generalizing members cursor with
  | zero => exact gives_refuse _
  | succ steps inductionHypothesis =>
      unfold readMembers
      extract_lets cursor proceed
      have proceeds (next : Cursor) :
          Gives (fun found : List (String × Json) => ∀ member ∈ found, IsSorted member.2)
            (proceed next) := by
        apply gives_bind
        intro named
        dsimp only
        split
        · exact gives_refuseNext _
        · exact (one _).bind fun read sorted =>
            inductionHypothesis (List.forall_mem_cons.mpr ⟨sorted, each⟩)
        · exact gives_refuseNext _
      split
      · exact gives_refuseNext _
      · exact gives_ok fun member found => each member (List.mem_reverse.mp found)
      · split
        · exact gives_ite (proceeds _) (gives_refuseNext _)
        · split
          · exact gives_refuseNext _
          · split
            · exact gives_refuseNext _
            · exact proceeds _
            · exact gives_refuseNext _
            · exact gives_refuseNext _

theorem gives_readValue_of {levels : Nat}
    (inside : ∀ inner, levels = inner + 1 → ∀ cursor, Gives IsSorted (readValue inner cursor)) :
    Gives IsSorted (readValue levels cursor) := by
  unfold readValue
  dsimp only
  split
  · exact gives_refuseNext _
  · exact gives_readWord .null _
  · exact gives_readWord (.bool _) _
  · exact gives_readWord (.bool _) _
  · exact gives_readNumber _
  · exact gives_bind fun read => gives_ok (.string _)
  · cases levels with
    | zero => exact gives_refuseNext _
    | succ inner =>
        refine Gives.bind (gives_readElements (inside inner rfl) _ (List.forall_mem_nil _)) ?_
        exact fun read sorted => gives_ok (.array _ sorted)
  · cases levels with
    | zero => exact gives_refuseNext _
    | succ inner =>
        refine Gives.bind (gives_readMembers (inside inner rfl) _ (List.forall_mem_nil _)) ?_
        exact fun read sorted => gives_ok (.ofMembers sorted)
  · exact gives_ite (gives_readNumber _) (gives_refuseNext _)

theorem gives_readValue (levels : Nat) (cursor : Cursor) :
    Gives IsSorted (readValue levels cursor) := by
  induction levels generalizing cursor with
  | zero => exact gives_readValue_of nofun
  | succ inner inductionHypothesis =>
      apply gives_readValue_of
      intro smaller same
      cases same
      exact inductionHypothesis

/-- Every value that is parsed from a text is sorted. -/
theorem isSorted_of_parse {text : String} {value : Json} (parsed : parse text = .ok value) :
    value.IsSorted := by
  unfold parse read at parsed
  cases outcome : readValue 127 ⟨0, text.toList⟩ with
  | error refusal =>
      rw [outcome] at parsed
      cases parsed
  | ok result =>
      rw [outcome] at parsed
      have sorted : result.1.IsSorted := gives_readValue 127 _ result outcome
      change Except.mapError _ (if _ then _ else _) = _ at parsed
      split at parsed
      · cases parsed
        exact sorted
      · cases parsed

end ScriptLint.Json
