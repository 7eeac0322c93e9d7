import ScriptLint.Settings.Resolution

/-!
# Resolved options

Whatever a configuration says, the options that the table gives to a rule have the shape that the
rule asks for, and a width of indentation is never zero.
-/

namespace ScriptLint

/-- The options have the shape that the rule with an identifier asks for. -/
def RuleOptions.Fits (ruleId : String) (options : RuleOptions) : Prop :=
  if ruleId = "indent" then ∃ indentation, options = .indent indentation ∧ 1 ≤ indentation.size
  else if ruleId = "maxLineLength" then ∃ limit, options = .threshold limit
  else if ruleId = "semicolons" then ∃ style, options = .semicolons style
  else if ruleId = "quotes" then ∃ style, options = .quotes style
  else options = .enabled

namespace Resolution

variable {found : Setting} {options : RuleOptions}

theorem one_le_limitOf {value : Binary64} (atLeastOne : value.isAtLeastOne = true) :
    1 ≤ limitOf value := by
  rw [Binary64.isAtLeastOne, Bool.and_eq_true, decide_eq_true_eq] at atLeastOne
  have greatest : 1 ≤ greatestLimit := by
    decide
  exact Nat.le_min.mpr ⟨atLeastOne.2, greatest⟩

theorem ofIndent_eq_enabled {size : IndentWidth} {useSpaces : Option Bool}
    (resolved : ofIndent size useSpaces = enabled options) :
    ∃ indentation, options = .indent indentation ∧ 1 ≤ indentation.size := by
  unfold ofIndent at resolved
  split at resolved
  · cases resolved
  · cases resolved
  · split at resolved
    · next atLeastOne =>
        cases resolved
        exact ⟨_, rfl, one_le_limitOf atLeastOne⟩
    · cases resolved

theorem ofIndentSize_eq_enabled {useSpaces : Option Bool}
    (resolved : ofIndentSize found useSpaces = enabled options) :
    ∃ indentation, options = .indent indentation ∧ 1 ≤ indentation.size := by
  unfold ofIndentSize at resolved
  split at resolved
  · exact ofIndent_eq_enabled resolved
  · exact ofIndent_eq_enabled resolved
  · cases resolved

theorem ofIndentSettings_eq_enabled {settings : RuleSettings}
    (resolved : ofIndentSettings settings = enabled options) :
    ∃ indentation, options = .indent indentation ∧ 1 ≤ indentation.size := by
  unfold ofIndentSettings at resolved
  split at resolved
  · cases resolved
  · exact ofIndent_eq_enabled resolved
  · exact ofIndent_eq_enabled resolved
  · cases resolved
  · split at resolved
    · cases resolved
    · split at resolved
      · exact ofIndentSize_eq_enabled resolved
      · exact ofIndentSize_eq_enabled resolved
      · cases resolved

theorem ofLineLength_eq_enabled (resolved : ofLineLength found = enabled options) :
    ∃ limit, options = .threshold limit := by
  unfold ofLineLength at resolved
  split at resolved
  · split at resolved
    · cases resolved
      exact ⟨_, rfl⟩
    · split at resolved
      · cases resolved
      · cases resolved
  · cases resolved

theorem ofSemicolons_eq_enabled (resolved : ofSemicolons found = enabled options) :
    ∃ style, options = .semicolons style := by
  unfold ofSemicolons at resolved
  split at resolved
  · cases resolved
    exact ⟨_, rfl⟩
  · cases resolved
    exact ⟨_, rfl⟩
  · cases resolved
    exact ⟨_, rfl⟩
  · cases resolved

theorem ofQuotes_eq_enabled (resolved : ofQuotes found = enabled options) :
    ∃ style, options = .quotes style := by
  unfold ofQuotes at resolved
  split at resolved
  · cases resolved
    exact ⟨_, rfl⟩
  · cases resolved
    exact ⟨_, rfl⟩
  · cases resolved

theorem ofSwitch_eq_enabled (resolved : ofSwitch found = enabled options) :
    options = .enabled := by
  unfold ofSwitch at resolved
  split at resolved
  · cases resolved
    rfl
  · cases resolved

end Resolution

/-- Options from the table have the shape that their rule asks for. -/
theorem RuleSettings.fits_of_resolve {settings : RuleSettings} {ruleId : String}
    {options : RuleOptions} (resolved : settings.resolve ruleId = .enabled options) :
    options.Fits ruleId := by
  unfold resolve at resolved
  unfold RuleOptions.Fits
  split at resolved
  · next isIndent =>
      rw [if_pos isIndent]
      exact Resolution.ofIndentSettings_eq_enabled resolved
  · next notIndent =>
      rw [if_neg notIndent]
      split at resolved
      · cases resolved
      · split at resolved
        · cases resolved
        · next setting _ _ =>
            unfold Resolution.ofSetting at resolved
            by_cases isLength : ruleId = "maxLineLength"
            · rw [if_pos isLength] at resolved ⊢
              exact Resolution.ofLineLength_eq_enabled resolved
            · rw [if_neg isLength] at resolved ⊢
              by_cases isSemicolons : ruleId = "semicolons"
              · rw [if_pos isSemicolons] at resolved ⊢
                exact Resolution.ofSemicolons_eq_enabled resolved
              · rw [if_neg isSemicolons] at resolved ⊢
                by_cases isQuotes : ruleId = "quotes"
                · rw [if_pos isQuotes] at resolved ⊢
                  exact Resolution.ofQuotes_eq_enabled resolved
                · rw [if_neg isQuotes] at resolved ⊢
                  exact Resolution.ofSwitch_eq_enabled resolved

end ScriptLint
