import ScriptLint.Proofs.Json.Sorted
import ScriptLint.Yaml.Document

/-!
# Values of YAML documents are sorted

A scalar never stands for an object, and a mapping gets its members in the order of their keys. So
the value of a document is sorted like that of a JSON text.
-/

namespace ScriptLint.Yaml

open Json

/-! ## Scalars -/

section Scalars

variable {letters : List Char} {value : Json}

theorem isSorted_of_representInteger {negative : Bool} {magnitude : Nat}
    (represented : representInteger negative magnitude = some value) : value.IsSorted := by
  unfold representInteger at represented
  split at represented
  · obtain ⟨_, ⟨⟩⟩ := Option.ite_none_right_eq_some.mp represented
    exact .number _
  · obtain ⟨_, ⟨⟩⟩ := Option.ite_none_right_eq_some.mp represented
    exact .number _

theorem isSorted_of_real? (represented : real? letters = some value) : value.IsSorted := by
  unfold real? at represented
  split at represented
  · cases represented
    exact .null
  · obtain ⟨number, _, ⟨⟩⟩ := Option.map_eq_some_iff.mp represented
    exact .number _

theorem isSorted_of_representPlain (represented : representPlain letters = some value) :
    value.IsSorted := by
  unfold representPlain at represented
  split at represented
  · cases represented
    exact .null
  · split at represented
    · cases represented
      exact .bool _
    · exact isSorted_of_representInteger represented
    · split at represented
      · cases represented
        exact .string _
      · rcases Option.or_eq_some_iff.mp represented with real | ⟨_, ⟨⟩⟩
        · exact isSorted_of_real? real
        · exact .string _

theorem isSorted_of_representScalar {tag : Option Tag} {isPlain : Bool}
    (represented : representScalar tag isPlain letters = some value) : value.IsSorted := by
  unfold representScalar at represented
  cases tag with
  | none =>
      dsimp only at represented
      split at represented
      · exact isSorted_of_representPlain represented
      · cases represented
        exact .string _
  | some tag =>
      dsimp only at represented
      split_ifs at represented
      · obtain ⟨truth, _, ⟨⟩⟩ := Option.map_eq_some_iff.mp represented
        exact .bool truth
      · obtain ⟨_, _, inRange⟩ := Option.bind_eq_some_iff.mp represented
        exact isSorted_of_representInteger inRange
      · exact isSorted_of_real? represented
      · cases represented
        exact .null
      · exact isSorted_of_representPlain represented
      · cases represented
        exact .string _

end Scalars

/-! ## Steps that follow aliases -/

/-- Whatever the step returns has the property, however many aliases may be followed. -/
def Returns {α : Type} (holds : α → Prop) (step : Following α) : Prop :=
  ∀ budget result left, step budget = some (result, left) → holds result

section Returns

variable {α β : Type} {holds : α → Prop}

theorem returns_failure : Returns holds failure := nofun

theorem returns_pure {value : α} (valid : holds value) : Returns holds (pure value) := by
  intro budget result left returned
  cases returned
  exact valid

theorem returns_lift {represented : Option α}
    (valid : ∀ value, represented = some value → holds value) :
    Returns holds (StateT.lift represented) := by
  intro budget result left returned
  obtain ⟨value, found, same⟩ := Option.bind_eq_some_iff.mp returned
  cases same
  exact valid result found

theorem Returns.bind {holdsFirst : β → Prop} {step : Following β} {next : β → Following α}
    (first : Returns holdsFirst step)
    (further : ∀ value, holdsFirst value → Returns holds (next value)) :
    Returns holds (step >>= next) := by
  intro budget result left returned
  obtain ⟨⟨value, rest⟩, found, returned⟩ := Option.bind_eq_some_iff.mp returned
  exact further value (first budget value rest found) rest result left returned

theorem returns_bind {step : Following β} {next : β → Following α}
    (further : ∀ value, Returns holds (next value)) : Returns holds (step >>= next) := by
  have anything : Returns (fun _ => True) step := fun _ _ _ _ => trivial
  exact anything.bind fun value _ => further value

theorem Returns.mapM {step : β → Following α} {items : List β}
    (each : ∀ item, Returns holds (step item)) :
    Returns (fun results => ∀ result ∈ results, holds result) (items.mapM step) := by
  induction items with
  | nil => exact returns_pure (List.forall_mem_nil _)
  | cons item items inductionHypothesis =>
      rw [List.mapM_cons]
      refine (each item).bind fun result valid => ?_
      refine inductionHypothesis.bind fun results others => ?_
      exact returns_pure (List.forall_mem_cons.mpr ⟨valid, others⟩)

end Returns

/-! ## Nodes -/

theorem returns_represent_of {anchors : Anchors} {levels : Nat} (node : Node)
    (inside : ∀ inner, levels = inner + 1 →
      ∀ node, Returns IsSorted (represent anchors inner node)) :
    Returns IsSorted (represent anchors levels node) := by
  unfold represent
  refine returns_bind fun target => ?_
  split
  · exact returns_failure
  · exact returns_lift fun value => isSorted_of_representScalar
  · split
    · exact returns_failure
    · cases levels with
      | zero => exact returns_failure
      | succ inner =>
          refine (Returns.mapM (inside inner rfl)).bind fun elements each => ?_
          exact returns_pure (.array elements each)
  · split
    · exact returns_failure
    · cases levels with
      | zero => exact returns_failure
      | succ inner =>
          have memberSorted (member : Node × Node) :
              Returns (fun read : String × Json => read.2.IsSorted) (do
                let key ← keyText anchors member.1
                return (key, ← represent anchors inner member.2)) := by
            refine returns_bind fun key => ?_
            refine (inside inner rfl member.2).bind fun value valid => ?_
            exact returns_pure valid
          refine (Returns.mapM memberSorted).bind fun read each => ?_
          exact returns_pure (.ofMembers each)

theorem returns_represent (anchors : Anchors) (levels : Nat) (node : Node) :
    Returns IsSorted (represent anchors levels node) := by
  induction levels generalizing node with
  | zero => exact returns_represent_of node nofun
  | succ inner inductionHypothesis =>
      apply returns_represent_of
      intro smaller same
      cases same
      exact inductionHypothesis

/-- The value of every document that can be read is sorted. -/
theorem isSorted_of_parse? {text : String} {value : Json} (parsed : parse? text = some value) :
    value.IsSorted := by
  unfold parse? at parsed
  obtain ⟨found, _, parsed⟩ := Option.bind_eq_some_iff.mp parsed
  cases found with
  | none =>
      cases parsed
      exact .null
  | some node =>
      obtain ⟨⟨result, left⟩, returned, ⟨⟩⟩ := Option.map_eq_some_iff.mp parsed
      exact returns_represent node.anchored depthLimit node _ result left returned

end ScriptLint.Yaml
