import ScriptLint.Proofs.Keyed
import ScriptLint.Proofs.Outcome
import ScriptLint.Settings.Configuration
import Mathlib.Data.List.Basic

/-!
# Configurations are read back

A value that is read as a setting may have been written in several ways, but the setting has one
written form, and that form is read as the same setting: no kind is taken for another. The same
holds of the settings of a configuration, which stand sorted by key, and so of the whole
configuration, whose written form always names its fields and is never taken for a bare object of
settings.
-/

namespace ScriptLint

/-! ## Settings -/

theorem IndentRecord.ofJson?_toJson (record : IndentRecord) :
    IndentRecord.ofJson? record.toJson = some record := by
  obtain ⟨size, useSpaces⟩ := record
  cases size <;> cases useSpaces <;> rfl

namespace Setting

/-- The setting is read from the value as which it is written. -/
def IsReadBack (setting : Setting) : Prop := ofJson setting.toJson = setting

/-- The value is none of the simple kinds: it is read as an indentation record or kept as it is. -/
def IsCompound (value : Json) : Prop :=
  ofJson value = (IndentRecord.ofJson? value).elim (other value) indent

theorem isCompound_null : IsCompound .null := rfl

theorem isCompound_array (elements : List Json) : IsCompound (.array elements) := by
  simp only [IsCompound, ofJson]
  cases IndentRecord.ofJson? (.array elements) <;> rfl

theorem isCompound_object (members : List (String × Json)) : IsCompound (.object members) := by
  simp only [IsCompound, ofJson]
  cases IndentRecord.ofJson? (.object members) <;> rfl

/-- Settings of the kinds that a rule may accept are read back. -/
theorem isReadBack_of_ne_other {setting : Setting} (known : ∀ value, setting ≠ other value) :
    setting.IsReadBack := by
  cases setting with
  | bool value => rfl
  | number value => rfl
  | text value => rfl
  | indent record =>
      have compound : IsCompound record.toJson := isCompound_object _
      rw [IsReadBack, toJson, compound, IndentRecord.ofJson?_toJson, Option.elim_some]
  | other value => exact absurd rfl (known value)

/-- A compound value is kept as it is only if it is no indentation record, and then it is none when
it is read again. -/
theorem isReadBack_of_isCompound {value : Json} (compound : IsCompound value) :
    (ofJson value).IsReadBack := by
  rw [IsCompound] at compound
  cases read : IndentRecord.ofJson? value with
  | some record =>
      rw [compound, read, Option.elim_some]
      exact isReadBack_of_ne_other nofun
  | none =>
      rw [read, Option.elim_none] at compound
      rw [compound]
      exact compound

/-- Whatever value a setting is read from, the setting is read back. -/
theorem isReadBack_ofJson (value : Json) : (ofJson value).IsReadBack := by
  cases value with
  | bool found => exact isReadBack_of_ne_other nofun
  | number found => exact isReadBack_of_ne_other nofun
  | string found => exact isReadBack_of_ne_other nofun
  | null => exact isReadBack_of_isCompound isCompound_null
  | array elements => exact isReadBack_of_isCompound (isCompound_array elements)
  | object members => exact isReadBack_of_isCompound (isCompound_object members)

end Setting

namespace RuleSettings

/-- The settings stand in the order of their keys, and each of them is read back. -/
structure AreReadBack (settings : RuleSettings) : Prop where
  ascending : Keyed.IsAscending settings.entries
  values : ∀ entry ∈ settings.entries, entry.2.IsReadBack

theorem areReadBack_ofList {pairs : List (String × Setting)}
    (each : ∀ pair ∈ pairs, pair.2.IsReadBack) : (ofList pairs).AreReadBack where
  ascending := Keyed.isAscending_ofList pairs
  values _ member := each _ (Keyed.mem_of_mem_ofList member)

theorem areReadBack_ofMembers (members : List (String × Json)) :
    (ofMembers members).AreReadBack := by
  apply areReadBack_ofList
  intro pair member
  obtain ⟨written, _, rfl⟩ := List.mem_map.mp member
  exact Setting.isReadBack_ofJson written.2

theorem areReadBack_of_ofJson {value : Json} {settings : RuleSettings}
    (read : ofJson value = .ok settings) : settings.AreReadBack := by
  cases value with
  | object members =>
      cases read
      exact areReadBack_ofMembers members
  | _ => cases read

theorem AreReadBack.ofJson_toJson {settings : RuleSettings} (readBack : settings.AreReadBack) :
    ofJson settings.toJson = .ok settings := by
  have same : ∀ entry ∈ settings.entries, (entry.1, Setting.ofJson entry.2.toJson) = entry :=
    fun entry member => Prod.ext rfl (readBack.values entry member)
  have entriesEq : (settings.entries.map fun entry => (entry.1, entry.2.toJson)).map
      (fun member => (member.1, Setting.ofJson member.2)) = settings.entries := by
    rw [List.map_map]
    calc settings.entries.map (fun entry => (entry.1, Setting.ofJson entry.2.toJson))
        = settings.entries.map (fun entry => entry) := List.map_congr_left same
      _ = settings.entries := List.map_id' settings.entries
  change Except.ok (ofMembers _) = _
  rw [ofMembers, entriesEq, ofList, Keyed.ofList_eq_self readBack.ascending]

end RuleSettings

/-! ## Fields -/

namespace Json

variable {α : Type} {asValue : Json → Shaped α}

/-- A field that was read has been given, as a value of the expected shape. -/
theorem exists_of_given {given : Option Json} {result : α}
    (read : (match given with
      | some value => (asValue value).map some
      | none => .ok none) = Except.ok (some result)) :
    ∃ value, asValue value = .ok result := by
  cases given with
  | none => cases read
  | some value =>
      cases outcome : asValue value with
      | error mismatch =>
          simp only [outcome] at read
          cases read
      | ok found =>
          simp only [outcome] at read
          cases read
          exact ⟨value, outcome⟩

theorem readMember_eq_some {members : List (String × Json)} {name : String} {value : Json}
    {result : α} (found : Keyed.find? members name = some value) (read : asValue value = .ok result) :
    readMember members name asValue = .ok (some result) := by
  rw [readMember, found]
  change (asValue value).map some = _
  rw [read]
  rfl

theorem readMember_eq_none {members : List (String × Json)} {name : String}
    (absent : Keyed.find? members name = none) : readMember members name asValue = .ok none := by
  rw [readMember, absent]

theorem asList_map_string (texts : List String) :
    asList asText (.array (texts.map string)) = .ok texts := by
  change (texts.map string).mapM asText = .ok texts
  induction texts with
  | nil => rfl
  | cons first rest inductionHypothesis =>
      rw [List.map_cons, List.mapM_cons, inductionHypothesis]
      rfl

end Json

/-! ## Configurations -/

namespace Configuration

theorem areReadBack_defaultRules : defaultRules.AreReadBack := by
  apply RuleSettings.areReadBack_ofList
  intro pair member
  rcases List.mem_append.mp member with chosen | switch
  · simp only [List.mem_cons, List.not_mem_nil, or_false] at chosen
    rcases chosen with rfl | rfl | rfl | rfl | rfl | rfl <;> rfl
  · obtain ⟨id, _, rfl⟩ := List.mem_map.mp switch
    rfl

/-- The settings come from a member or an element that was given, or else are the default ones. -/
theorem areReadBack_ofFields {given : Option Json} {rules : Option RuleSettings}
    {included excluded : Option (List String)} {limit : Option (Option Nat)}
    (read : (match given with
      | some value => (RuleSettings.ofJson value).map some
      | none => .ok none) = Except.ok rules) :
    (ofFields rules included excluded limit).rules.AreReadBack := by
  cases rules with
  | none => exact areReadBack_defaultRules
  | some settings =>
      obtain ⟨value, valueRead⟩ := Json.exists_of_given read
      exact RuleSettings.areReadBack_of_ofJson valueRead

theorem areReadBack_of_ofMembers {members : List (String × Json)} {configuration : Configuration}
    (read : ofMembers members = .ok configuration) : configuration.rules.AreReadBack := by
  unfold ofMembers at read
  obtain ⟨excluded, _, read⟩ := exists_of_bind_eq_ok read
  obtain ⟨included, _, read⟩ := exists_of_bind_eq_ok read
  obtain ⟨limit, _, read⟩ := exists_of_bind_eq_ok read
  obtain ⟨rules, rulesRead, ⟨⟩⟩ := exists_of_bind_eq_ok read
  exact areReadBack_ofFields rulesRead

theorem areReadBack_of_ofElements {elements : List Json} {configuration : Configuration}
    (read : ofElements elements = .ok configuration) : configuration.rules.AreReadBack := by
  unfold ofElements at read
  obtain ⟨rules, rulesRead, read⟩ := exists_of_bind_eq_ok read
  obtain ⟨included, _, read⟩ := exists_of_bind_eq_ok read
  obtain ⟨excluded, _, read⟩ := exists_of_bind_eq_ok read
  obtain ⟨limit, _, read⟩ := exists_of_bind_eq_ok read
  obtain ⟨_, _, ⟨⟩⟩ := exists_of_bind_eq_ok read
  exact areReadBack_ofFields rulesRead

theorem areReadBack_of_ofJson {value : Json} {configuration : Configuration}
    (read : ofJson value = .ok configuration) : configuration.rules.AreReadBack := by
  unfold ofJson at read
  split at read
  · next members _ =>
      cases read
      exact RuleSettings.areReadBack_ofMembers members
  · cases value with
    | null =>
        cases read
        exact areReadBack_defaultRules
    | object members => exact areReadBack_of_ofMembers read
    | array elements => exact areReadBack_of_ofElements read
    | bool _ => cases read
    | number _ => cases read
    | string _ => cases read

/-- The members of an object have the fields of the configuration, in whatever order. -/
structure IsWrittenIn (configuration : Configuration) (members : List (String × Json)) : Prop where
  rules : Keyed.find? members "rules" = some configuration.rules.toJson
  included : Keyed.find? members "include" =
    some (.array (configuration.included.map Json.string))
  excluded : Keyed.find? members "exclude" =
    some (.array (configuration.excluded.map Json.string))
  limit : Keyed.find? members "maxFileSize" = configuration.maxFileSize.map Json.nat

/-- The members in the order of the fields, and the same members in the order of their names. -/
theorem exists_toJson_eq (configuration : Configuration) :
    ∃ members, configuration.toJson = .object members ∧ configuration.IsWrittenIn members ∧
      configuration.IsWrittenIn (Keyed.ofList members) := by
  obtain ⟨rules, included, excluded, limit⟩ := configuration
  refine ⟨_, rfl, ?_, ?_⟩
  · cases limit with
    | none => exact ⟨rfl, rfl, rfl, rfl⟩
    | some limit => exact ⟨rfl, rfl, rfl, rfl⟩
  · constructor
    all_goals
      rw [Keyed.find?_ofList]
      cases limit with
      | none => rfl
      | some limit => rfl

namespace IsWrittenIn

variable {configuration : Configuration} {members : List (String × Json)}

/-- An object with the field for the settings is no bare object of settings. -/
theorem bareMembers?_eq_none (written : configuration.IsWrittenIn members) :
    bareMembers? (.object members) = none := by
  have hasField : (members.any fun member => fieldNames.contains member.1) = true := by
    rw [List.any_eq_true]
    exact ⟨_, Keyed.mem_of_find? written.rules, rfl⟩
  rw [bareMembers?, hasField, Bool.or_true]
  rfl

theorem exists_readMember_limit (written : configuration.IsWrittenIn members) :
    ∃ limit, Json.readMember members "maxFileSize" asLimit = .ok limit ∧
      limit.join = configuration.maxFileSize := by
  have found := written.limit
  cases given : configuration.maxFileSize with
  | none =>
      rw [given] at found
      exact ⟨none, Json.readMember_eq_none found, rfl⟩
  | some limit =>
      rw [given] at found
      exact ⟨some (some limit), Json.readMember_eq_some found rfl, rfl⟩

theorem ofJson_eq (written : configuration.IsWrittenIn members)
    (readBack : configuration.rules.AreReadBack) :
    Configuration.ofJson (.object members) = .ok configuration := by
  have ofJsonEq : Configuration.ofJson (.object members) = ofMembers members := by
    unfold Configuration.ofJson
    rw [written.bareMembers?_eq_none]
  have excludedRead : Json.readMember members "exclude" asPatterns =
      .ok (some configuration.excluded) :=
    Json.readMember_eq_some written.excluded (Json.asList_map_string configuration.excluded)
  have includedRead : Json.readMember members "include" asPatterns =
      .ok (some configuration.included) :=
    Json.readMember_eq_some written.included (Json.asList_map_string configuration.included)
  have rulesRead : Json.readMember members "rules" RuleSettings.ofJson =
      .ok (some configuration.rules) :=
    Json.readMember_eq_some written.rules readBack.ofJson_toJson
  obtain ⟨limit, limitRead, limitEq⟩ := written.exists_readMember_limit
  rw [ofJsonEq, ofMembers, excludedRead, includedRead, limitRead, rulesRead]
  change Except.ok (ofFields _ _ _ limit) = _
  rw [ofFields, limitEq]
  rfl

end IsWrittenIn

end Configuration

/-- Every configuration that is read, from whatever value, is read again from its written form: the
settings keep their kinds and values, and the patterns and the size limit are the same. It does not
matter whether the members of the written form stand in the order of the fields or of their
names. -/
theorem configuration_isReadBack {value : Json} {configuration : Configuration}
    (read : Configuration.ofJson value = .ok configuration) :
    Configuration.ofJson configuration.toJson = .ok configuration ∧
      ∀ members, configuration.toJson = .object members →
        Configuration.ofJson (.ofMembers members) = .ok configuration := by
  have readBack := Configuration.areReadBack_of_ofJson read
  obtain ⟨members, toJsonEq, written, sorted⟩ := configuration.exists_toJson_eq
  rw [toJsonEq]
  refine ⟨written.ofJson_eq readBack, ?_⟩
  rintro _ ⟨⟩
  exact sorted.ofJson_eq readBack

/-- Settings of every kind, one of them an indentation written as an array and one that no rule
accepts, beside a list of patterns and a size limit. -/
theorem configuration_isReadBack_every_kind :
    let value := Json.object
      [("exclude", .array [.string "dist/**"]), ("maxFileSize", .nat 4096),
        ("rules", .object
          [("indent", .array [.nat 2, .null]), ("maxLineLength", .nat 80), ("noVar", .bool true),
            ("quotes", .string "double"),
            ("semicolons", .object [("indentSize", .string "wide")])])]
    let configuration : Configuration :=
      { rules := ⟨[("indent", .indent ⟨.width (.ofNat false 2), none⟩),
          ("maxLineLength", .number (.ofNat false 80)), ("noVar", .bool true),
          ("quotes", .text "double"),
          ("semicolons", .other (.object [("indentSize", .string "wide")]))]⟩
        included := Configuration.defaultIncluded
        excluded := ["dist/**"]
        maxFileSize := some 4096 }
    Configuration.ofJson value = .ok configuration ∧
      Configuration.ofJson configuration.toJson = .ok configuration := by
  intro value configuration
  have read : Configuration.ofJson value = .ok configuration := rfl
  exact ⟨read, (configuration_isReadBack read).1⟩

end ScriptLint
