import ScriptLint.Proofs.Json.Sorted
import ScriptLint.Proofs.Settings.Bare
import ScriptLint.Proofs.Settings.RoundTrip
import ScriptLint.Proofs.Yaml.Sorted
import ScriptLint.Settings.File

/-!
# Settings without effect

A setting takes effect only if its key is the identifier of a rule or one of the indentation keys.
The warnings about a configuration that is written as an object, and those about null, name the keys
of all other settings that are read from it. A configuration that is written as an array of its
fields is read as well, but nobody looks for unknown keys in it.
-/

namespace ScriptLint

namespace SettingsWarning

/-- The key of the setting without effect, if the warning is about one. -/
def unknownRule? : SettingsWarning → Option String
  | unknownRule name _ => some name
  | unknownKey _ _ => none

end SettingsWarning

theorem RuleSettings.keys_ofMembers {members : List (String × Json)}
    (ascending : Keyed.IsAscending members) : (ofMembers members).keys = Keyed.keys members := by
  have mapped := Keyed.isAscending_map Setting.ofJson ascending
  rw [keys, ofMembers, ofList, Keyed.ofList_eq_self mapped, Keyed.keys_map]

namespace Registry

variable {registry : Registry} {value : Json} {members : List (String × Json)}
  {configuration : Configuration}

/-- The keys of settings that the warnings name. -/
def warnedSettings (registry : Registry) (value : Json) : List String :=
  (registry.warnings value).filterMap SettingsWarning.unknownRule?

/-- The keys that have no effect. -/
def unknownSettings (registry : Registry) (settings : RuleSettings) : List String :=
  settings.keys.filter fun key => !registry.knownKeys.contains key

/-- The settings that hold without a configuration all have an effect. -/
def KnowsDefaults (registry : Registry) : Prop :=
  registry.unknownSettings Configuration.defaultRules = []

theorem knowsDefaults_builtin : builtin.KnowsDefaults := by
  unfold KnowsDefaults
  decide +kernel

theorem filterMap_fieldWarnings (members : List (String × Json)) :
    (fieldWarnings members).filterMap SettingsWarning.unknownRule? = [] := by
  rw [fieldWarnings, List.filterMap_map]
  exact List.filterMap_eq_nil_iff.mpr fun _ _ => rfl

theorem filterMap_ruleWarnings (ascending : Keyed.IsAscending members) :
    (registry.ruleWarnings members).filterMap SettingsWarning.unknownRule? =
      registry.unknownSettings (.ofMembers members) := by
  rw [ruleWarnings, List.filterMap_map, unknownSettings, RuleSettings.keys_ofMembers ascending]
  exact List.filterMap_some

theorem warnedSettings_of_bareMembers? (sorted : value.IsSorted)
    (bare : Configuration.bareMembers? value = some members) :
    registry.warnedSettings value = registry.unknownSettings (.ofMembers members) := by
  have valueEq := Configuration.eq_object_of_bareMembers? bare
  subst valueEq
  rw [warnedSettings, registry.warnings_of_bareMembers? bare]
  exact filterMap_ruleWarnings sorted.ascending_of_object

/-- The settings of an object in full are those of its member, or else the default ones, about which
there is nothing to warn. -/
theorem warnedSettings_of_ofMembers (known : registry.KnowsDefaults)
    (sorted : Json.IsSorted (.object members))
    (full : Configuration.bareMembers? (.object members) = none)
    (read : Configuration.ofMembers members = .ok configuration) :
    registry.warnedSettings (.object members) = registry.unknownSettings configuration.rules := by
  unfold Configuration.ofMembers at read
  obtain ⟨excluded, _, read⟩ := exists_of_bind_eq_ok read
  obtain ⟨included, _, read⟩ := exists_of_bind_eq_ok read
  obtain ⟨limit, _, read⟩ := exists_of_bind_eq_ok read
  obtain ⟨rules, rulesRead, ⟨⟩⟩ := exists_of_bind_eq_ok read
  unfold warnedSettings warnings
  rw [full]
  simp only [List.filterMap_append, filterMap_fieldWarnings, List.nil_append]
  cases found : Keyed.find? members "rules" with
  | none =>
      rw [Json.readMember_eq_none found] at rulesRead
      cases rulesRead
      exact known.symm
  | some written =>
      have sortedRules : written.IsSorted := sorted.of_find? found
      cases written with
      | object settings =>
          have settingsRead : RuleSettings.ofJson (.object settings) = .ok (.ofMembers settings) :=
            rfl
          rw [Json.readMember_eq_some found settingsRead] at rulesRead
          cases rulesRead
          exact filterMap_ruleWarnings sortedRules.ascending_of_object
      | _ =>
          rw [Json.readMember, found] at rulesRead
          cases rulesRead

theorem warnings_array (registry : Registry) (elements : List Json) :
    registry.warnings (.array elements) = [] := rfl

theorem warnedSettings_of_ofJson (known : registry.KnowsDefaults) (sorted : value.IsSorted)
    (read : Configuration.ofJson value = .ok configuration)
    (noArray : ∀ elements, value ≠ .array elements) :
    registry.warnedSettings value = registry.unknownSettings configuration.rules := by
  unfold Configuration.ofJson at read
  split at read
  · next members bare =>
      cases read
      exact warnedSettings_of_bareMembers? sorted bare
  · next full =>
      cases value with
      | null =>
          cases read
          exact known.symm
      | object members => exact warnedSettings_of_ofMembers known sorted full read
      | array elements => exact absurd rfl (noArray elements)
      | bool _ => cases read
      | number _ => cases read
      | string _ => cases read

theorem pairwise_unknownSettings (registry : Registry)
    (read : Configuration.ofJson value = .ok configuration) :
    (registry.unknownSettings configuration.rules).Pairwise (· < ·) :=
  (Keyed.pairwise_keys (Configuration.areReadBack_of_ofJson read).ascending).filter _

end Registry

/-- The warnings about a configuration that is read name the keys of the settings that have no
effect, in ascending order and so none of them twice, unless it is written as an array. -/
theorem warnedSettings_builtin_eq {value : Json} {configuration : Configuration}
    (sorted : value.IsSorted) (read : Configuration.ofJson value = .ok configuration)
    (noArray : ∀ elements, value ≠ .array elements) :
    Registry.builtin.warnedSettings value =
        Registry.builtin.unknownSettings configuration.rules ∧
      (Registry.builtin.warnedSettings value).Pairwise (· < ·) := by
  have named : Registry.builtin.warnedSettings value =
      Registry.builtin.unknownSettings configuration.rules :=
    Registry.warnedSettings_of_ofJson Registry.knowsDefaults_builtin sorted read noArray
  refine ⟨named, ?_⟩
  rw [named]
  exact Registry.builtin.pairwise_unknownSettings read

/-- A misspelt rule beside a rule and an indentation key, in an object in full. -/
theorem warnedSettings_builtin_eq_misspelt :
    let value := Json.object [("rules",
      .object [("indentSize", .nat 2), ("noVar", .bool true), ("noVarr", .bool true)])]
    value.IsSorted ∧ (∀ elements, value ≠ .array elements) ∧
      ∃ configuration, Configuration.ofJson value = .ok configuration ∧
        Registry.builtin.unknownSettings configuration.rules = ["noVarr"] ∧
        Registry.builtin.warnedSettings value = ["noVarr"] := by
  intro value
  have sorted : value.IsSorted := by
    have settings : Json.IsSorted (.object
        [("indentSize", .nat 2), ("noVar", .bool true), ("noVarr", .bool true)]) := by
      refine .object _ ?ascending ?each
      case ascending =>
        unfold Keyed.IsAscending
        decide +kernel
      case each =>
        simp only [List.forall_mem_cons]
        exact ⟨.number _, .bool _, .bool _, List.forall_mem_nil _⟩
    exact .object _ (List.pairwise_singleton _ _) (List.forall_mem_singleton.mpr settings)
  have noArray : ∀ elements, value ≠ .array elements := nofun
  obtain ⟨configuration, read⟩ :
      ∃ configuration, Configuration.ofJson value = .ok configuration := ⟨_, rfl⟩
  have unknown : Registry.builtin.unknownSettings configuration.rules = ["noVarr"] := by
    cases read
    decide +kernel
  have named := (warnedSettings_builtin_eq sorted read noArray).1
  exact ⟨sorted, noArray, configuration, read, unknown, named.trans unknown⟩

/-- A misspelt rule in an array: the setting is read, and there is no warning. -/
theorem exists_unwarned_setting :
    let value := Json.array [.object [("noVarr", .bool true)]]
    value.IsSorted ∧
      ∃ configuration, Configuration.ofJson value = .ok configuration ∧
        Registry.builtin.unknownSettings configuration.rules = ["noVarr"] ∧
        Registry.builtin.warnings value = [] := by
  intro value
  have rulesSorted : Json.IsSorted (.object [("noVarr", .bool true)]) :=
    .object _ (List.pairwise_singleton _ _) (List.forall_mem_singleton.mpr (.bool true))
  refine ⟨.array _ (List.forall_mem_singleton.mpr rulesSorted), _, rfl, ?_, rfl⟩
  decide +kernel

/-! ## Configuration files -/

namespace Configuration

variable {contents : List Char}

theorem isSorted_of_parseYaml {text : String} {value : Json}
    (parsed : parseYaml text = .ok value) : value.IsSorted := by
  unfold parseYaml at parsed
  split at parsed
  · next found =>
      cases parsed
      exact Yaml.isSorted_of_parse? found
  · cases parsed

theorem isSorted_of_parseJson {text : String} {value : Json}
    (parsed : parseJson text = .ok value) : value.IsSorted :=
  Json.isSorted_of_parse (exists_of_mapError_eq_ok parsed)

/-- However the contents of a configuration file are written, their value is sorted. -/
theorem isSorted_of_parse {format : ConfigurationFormat} {value : Json}
    (parsed : parse format contents = .ok value) : value.IsSorted := by
  unfold parse at parsed
  dsimp only at parsed
  split at parsed
  · cases parsed
    exact .null
  · cases format with
    | yaml => exact isSorted_of_parseYaml parsed
    | json => exact isSorted_of_parseJson parsed
    | yamlOrJson =>
        dsimp only at parsed
        split at parsed
        · next fromYaml =>
            cases parsed
            exact isSorted_of_parseYaml fromYaml
        · exact isSorted_of_parseJson parsed

/-- The warnings about a file that is loaded name the keys of the settings that have no effect, in
ascending order and so none of them twice. Only about a file that holds an array there is none. -/
theorem warnings_of_load {path : List Char} {loaded : LoadedConfiguration}
    (succeeded : load path contents = .ok loaded) :
    loaded.warnings.filterMap SettingsWarning.unknownRule? =
          Registry.builtin.unknownSettings loaded.configuration.rules ∧
        (loaded.warnings.filterMap SettingsWarning.unknownRule?).Pairwise (· < ·) ∨
      loaded.warnings = [] ∧ ∃ format elements,
        formatOf? path = some format ∧ parse format contents = .ok (.array elements) := by
  unfold load at succeeded
  split at succeeded
  · cases succeeded
  · next format formatEq =>
      obtain ⟨value, parsed, succeeded⟩ := exists_of_bind_eq_ok succeeded
      obtain ⟨configuration, read, succeeded⟩ := exists_of_bind_eq_ok succeeded
      obtain ⟨_, _, ⟨⟩⟩ := exists_of_bind_eq_ok succeeded
      replace parsed := exists_of_mapError_eq_ok parsed
      replace read := exists_of_mapError_eq_ok read
      by_cases isArray : ∃ elements, value = .array elements
      · obtain ⟨elements, rfl⟩ := isArray
        exact .inr ⟨Registry.builtin.warnings_array elements, format, elements, formatEq, parsed⟩
      · have named := Registry.warnedSettings_of_ofJson Registry.knowsDefaults_builtin
          (isSorted_of_parse parsed) read (not_exists.mp isArray)
        refine .inl ⟨named, ?_⟩
        rw [Registry.warnedSettings] at named
        rw [named]
        exact Registry.builtin.pairwise_unknownSettings read

end Configuration

end ScriptLint
