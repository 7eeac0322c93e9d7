import ScriptLint.Proofs.Linter.Isolation

/-!
# Settings do not interfere

What the settings say about a rule depends on the entry under its identifier. Only the rule `indent`
looks further, and only where it has no entry of its own. An entry for one rule, well-formed or not,
can therefore be put in without any effect on what the other rules add to a report.
-/

namespace ScriptLint

namespace RuleSettings

/-- The entry under a key may decide what the settings say about a rule: it is the rule's own, or it
stands in for the one that the rule `indent` does not have. -/
def Governs (settings : RuleSettings) (key ruleId : String) : Prop :=
  key = ruleId ∨
    ruleId = "indent" ∧ key ∈ ["indentSize", "useSpaces"] ∧ settings.get? "indent" = none

instance (settings : RuleSettings) (key ruleId : String) :
    Decidable (settings.Governs key ruleId) :=
  inferInstanceAs (Decidable (_ ∨ _))

variable {settings changed : RuleSettings} {key ruleId : String}

theorem get?_insert_of_ne {other : String} (different : other ≠ key) (value : Setting) :
    (settings.insert key value).get? other = settings.get? other :=
  Keyed.find?_insert_of_ne different value settings.entries

/-- Settings that agree on the entries at which the table looks for a rule say the same about it. -/
theorem resolve_congr (own : changed.get? ruleId = settings.get? ruleId)
    (instead : ruleId = "indent" → settings.get? "indent" = none →
      ∀ key ∈ ["indentSize", "useSpaces"], changed.get? key = settings.get? key) :
    changed.resolve ruleId = settings.resolve ruleId := by
  by_cases isIndent : ruleId = "indent"
  · subst isIndent
    have sameIndent :
        Resolution.ofIndentSettings changed = Resolution.ofIndentSettings settings := by
      unfold Resolution.ofIndentSettings
      cases present : settings.get? "indent" with
      | some found =>
          rw [own, present]
          cases found with
          | bool value => cases value <;> rfl
          | _ => rfl
      | none =>
          have sameSize := instead rfl present "indentSize" (by simp)
          have sameSpaces := instead rfl present "useSpaces" (by simp)
          rw [own, present, sameSize, sameSpaces]
    simpa [resolve] using sameIndent
  · simp only [resolve, if_neg isIndent, own]

theorem resolve_insert_of_not_governs (spared : ¬ settings.Governs key ruleId) (value : Setting) :
    (settings.insert key value).resolve ruleId = settings.resolve ruleId := by
  obtain ⟨notOwn, notInstead⟩ := not_or.mp spared
  apply resolve_congr
  · exact get?_insert_of_ne (Ne.symm notOwn) value
  · intro isIndent absent other listed
    have different : other ≠ key := by
      rintro rfl
      exact notInstead ⟨isIndent, listed, absent⟩
    exact get?_insert_of_ne different value

end RuleSettings

theorem Rule.run_congr {rule : Rule} {settings changed : RuleSettings}
    (same : changed.resolve rule.id = settings.resolve rule.id) (document : Document) :
    rule.run document changed = rule.run document settings := by
  simp only [run, same]

/-- Putting in an entry changes what the settings say about the rules that it governs and about no
other rule: beyond the size limit a report stays as it is, and within it the report joins the same
additions as before, in the same places, from every rule that the entry does not govern. -/
theorem lint_insert_keepsOthers (linter : Linter) (document : Document) (settings : RuleSettings)
    (key : String) (value : Setting) :
    let changed := settings.insert key value
    let rules := linter.registry.rules
    (∀ ruleId, ¬ settings.Governs key ruleId →
      changed.resolve ruleId = settings.resolve ruleId) ∧
    ((∀ rule ∈ rules, ¬ settings.Governs key rule.id) →
      linter.lint document changed = linter.lint document settings) ∧
    (∀ limit, linter.sizeLimit = some limit → limit < document.size →
      linter.lint document changed = linter.lint document settings) ∧
    ((∀ limit, linter.sizeLimit = some limit → document.size ≤ limit) →
      ∃ additions changedAdditions,
        List.Forall₂ (fun rule => rule.Adds document settings) rules additions ∧
        List.Forall₂ (fun rule => rule.Adds document changed) rules changedAdditions ∧
        linter.lint document settings = .joined additions ∧
        linter.lint document changed = .joined changedAdditions ∧
        ∀ (index : Nat) (rule : Rule), rules[index]? = some rule → ¬ settings.Governs key rule.id →
          changedAdditions[index]? = additions[index]?) := by
  intro changed rules
  have sameRun : ∀ rule : Rule, ¬ settings.Governs key rule.id →
      rule.run document changed = rule.run document settings := fun rule spared =>
    Rule.run_congr (RuleSettings.resolve_insert_of_not_governs spared value) document
  have beyondLimit : ∀ limit, linter.sizeLimit = some limit → limit < document.size →
      linter.lint document changed = linter.lint document settings := by
    intro limit isLimit beyond
    rw [Linter.lint_eq_oversized isLimit beyond, Linter.lint_eq_oversized isLimit beyond]
  have additionsOf : ∀ settings : RuleSettings,
      List.Forall₂ (fun rule => rule.Adds document settings) rules
        (rules.map fun rule => (rule.run document settings).report) := by
    intro settings
    rw [List.forall₂_map_right_iff, List.forall₂_same]
    exact fun rule _ => rule.adds_report_run document settings
  refine ⟨fun ruleId spared => RuleSettings.resolve_insert_of_not_governs spared value, ?_,
    beyondLimit, ?_⟩
  · intro spared
    by_cases within : ∀ limit, linter.sizeLimit = some limit → document.size ≤ limit
    · have sameReports : (rules.map fun rule => (rule.run document changed).report) =
          rules.map fun rule => (rule.run document settings).report :=
        List.map_congr_left fun rule member =>
          congrArg Verdict.report (sameRun rule (spared rule member))
      rw [Linter.lint_eq_joined within, Linter.lint_eq_joined within, sameReports]
    · simp only [not_forall, Nat.not_le] at within
      obtain ⟨limit, isLimit, beyond⟩ := within
      exact beyondLimit limit isLimit beyond
  · intro within
    refine ⟨_, _, additionsOf settings, additionsOf changed, Linter.lint_eq_joined within,
      Linter.lint_eq_joined within, ?_⟩
    intro index rule found spared
    rw [List.getElem?_map, List.getElem?_map, found, Option.map_some, Option.map_some,
      sameRun rule spared]

/-- A malformed width is put in beside an indentation of its own; an issue of either rule that is
switched on stays. -/
theorem lint_insert_keepsOthers_width :
    let document : Document := ⟨"var a\n   b".toList⟩
    let settings := RuleSettings.ofList
      [("indent", .number (.ofNat false 2)), ("noVar", .bool true)]
    (∀ rule ∈ Registry.builtin.rules, ¬ settings.Governs "indentSize" rule.id) ∧
    (({} : Linter).lint document settings).issues.map (·.ruleId) = ["indent", "noVar"] ∧
    ({} : Linter).lint document (settings.insert "indentSize" (.text "wide")) =
      ({} : Linter).lint document settings := by
  intro document settings
  have spared : ∀ rule ∈ Registry.builtin.rules, ¬ settings.Governs "indentSize" rule.id := by
    decide
  have reported : (({} : Linter).lint document settings).issues.map (·.ruleId) =
      ["indent", "noVar"] := by
    decide +kernel
  exact ⟨spared, reported,
    (lint_insert_keepsOthers {} document settings "indentSize" (.text "wide")).2.1 spared⟩

end ScriptLint
