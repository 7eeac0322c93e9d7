import ScriptLint.Proofs.Keyed
import ScriptLint.Settings.Warning

/-!
# Bare settings

A bare object of settings stands for the configuration that names it as its settings and leaves out
the rest. Both are read, as the same configuration, whatever values the settings have, and both give
the same warnings in the same order.
-/

namespace ScriptLint

namespace RuleSettings

theorem mem_keys_ofMembers {members : List (String × Json)} {key : String} :
    key ∈ (ofMembers members).keys ↔ key ∈ Keyed.keys members := by
  rw [keys, ofMembers, ofList, Keyed.mem_keys_ofList, Keyed.keys_map]

theorem get?_ofMembers (members : List (String × Json)) (key : String) :
    (ofMembers members).get? key = (Keyed.find? members.reverse key).map Setting.ofJson := by
  rw [get?, ofMembers, ofList, Keyed.find?_ofList, ← List.map_reverse, Keyed.find?_map]

end RuleSettings

namespace Configuration

variable {value : Json} {members : List (String × Json)}

theorem eq_object_of_bareMembers? (bare : bareMembers? value = some members) :
    value = .object members := by
  cases value with
  | object found =>
      simp only [bareMembers?] at bare
      split at bare
      · cases bare
      · cases bare
        rfl
  | _ => cases bare

theorem ofJson_of_bareMembers? (bare : bareMembers? value = some members) :
    ofJson value = .ok { default with rules := .ofMembers members } := by
  unfold ofJson
  rw [bare]

theorem ofJson_named_rules (members : List (String × Json)) :
    ofJson (.object [("rules", .object members)]) =
      .ok { default with rules := .ofMembers members } := by
  have named : bareMembers? (.object [("rules", .object members)]) = none := rfl
  have rulesRead : Json.readMember [("rules", .object members)] "rules" RuleSettings.ofJson =
      .ok (some (.ofMembers members)) := rfl
  unfold ofJson
  rw [named]
  change ofMembers _ = _
  rw [ofMembers, rulesRead]
  rfl

end Configuration

namespace Registry

variable {value : Json} {members : List (String × Json)}

theorem warnings_of_bareMembers? (registry : Registry)
    (bare : Configuration.bareMembers? value = some members) :
    registry.warnings value = registry.ruleWarnings members := by
  unfold warnings
  rw [bare]

theorem warnings_named_rules (registry : Registry) (members : List (String × Json)) :
    registry.warnings (.object [("rules", .object members)]) = registry.ruleWarnings members := by
  have named : Configuration.bareMembers? (.object [("rules", .object members)]) = none := rfl
  have noUnknownField : fieldWarnings [("rules", .object members)] = [] := rfl
  have rulesFound : Keyed.find? [("rules", Json.object members)] "rules" =
      some (.object members) := rfl
  unfold warnings
  rw [named]
  simp only [noUnknownField, rulesFound, List.nil_append]

end Registry

/-- A bare object of settings is always read. The settings have its keys and no others, sorted, and
under each of them what its value, the last one under that key, is read as. The configuration that
names the object as its settings is read alike and warned about alike, under every registry. -/
theorem bare_readsLikeNamed {value : Json} (bare : Configuration.isBare value = true) :
    ∃ members configuration, value = .object members ∧
      Configuration.ofJson value = .ok configuration ∧
      (∀ key, key ∈ configuration.rules.keys ↔ key ∈ Keyed.keys members) ∧
      Keyed.IsAscending configuration.rules.entries ∧
      (∀ key, configuration.rules.get? key =
        (Keyed.find? members.reverse key).map Setting.ofJson) ∧
      Configuration.ofJson (.object [("rules", value)]) = .ok configuration ∧
      ∀ registry : Registry,
        registry.warnings (.object [("rules", value)]) = registry.warnings value := by
  obtain ⟨members, isBare⟩ := Option.isSome_iff_exists.mp bare
  have valueEq := Configuration.eq_object_of_bareMembers? isBare
  have readNamed := Configuration.ofJson_named_rules members
  rw [← valueEq] at readNamed
  refine ⟨members, _, valueEq, Configuration.ofJson_of_bareMembers? isBare, ?_, ?_, ?_,
    readNamed, ?_⟩
  · exact fun key => RuleSettings.mem_keys_ofMembers
  · exact Keyed.isAscending_ofList _
  · exact RuleSettings.get?_ofMembers members
  · intro registry
    have warnedNamed := registry.warnings_named_rules members
    rw [← valueEq] at warnedNamed
    rw [warnedNamed, registry.warnings_of_bareMembers? isBare]

/-- An object with a misspelt rule, a setting of a kind that no rule accepts and an indentation
written as an array. -/
theorem bare_readsLikeNamed_misspelt :
    let value := Json.object
      [("indent", .array [.nat 2, .bool false]), ("noVarr", .bool true), ("quotes", .null)]
    Configuration.isBare value = true ∧
    ∃ configuration, Configuration.ofJson value = .ok configuration ∧
      configuration.rules.keys = ["indent", "noVarr", "quotes"] ∧
      Configuration.ofJson (.object [("rules", value)]) = .ok configuration ∧
      Registry.builtin.warnings (.object [("rules", value)]) = Registry.builtin.warnings value := by
  intro value
  have bare : Configuration.isBare value = true := rfl
  obtain ⟨members, configuration, _, read, _, _, _, readNamed, warned⟩ := bare_readsLikeNamed bare
  have keysEq : configuration.rules.keys = ["indent", "noVarr", "quotes"] := by
    cases read
    rfl
  exact ⟨bare, configuration, read, keysEq, readNamed, warned Registry.builtin⟩

end ScriptLint
