import ScriptLint.Number.Decimal
import ScriptLint.Proofs.Number.Exact
import ScriptLint.Proofs.Settings.Resolution

/-!
# Limits from settings

The table accepts a line length that is greater than zero and a width of indentation that is one or
more, and rounds both down. So a width is never zero, but a length is zero if the setting lies
between zero and one.
-/

namespace ScriptLint

namespace Resolution

variable {value : Binary64} {found : Setting} {limit : Nat}

theorem limitOf_eq (positive : 0 < value.toRat) :
    limitOf value = min ⌊value.toRat⌋₊ greatestLimit := by
  rw [limitOf, Binary64.floorMagnitude_eq positive]

theorem limitOf_eq_zero_iff (positive : 0 < value.toRat) :
    limitOf value = 0 ↔ value.toRat < 1 := by
  have greatest : greatestLimit ≠ 0 := by decide
  rw [limitOf_eq positive, Nat.min_eq_zero_iff, or_iff_left greatest, Nat.floor_eq_zero]

theorem ofLineLength_eq_threshold_iff :
    ofLineLength found = enabled (.threshold limit) ↔
      ∃ value, found = .number value ∧ 0 < value.toRat ∧ limitOf value = limit := by
  cases found with
  | number value =>
      by_cases positive : value.isPositive = true
      · simp [ofLineLength, positive, Binary64.isPositive_iff.mp positive]
      · have notAbove : ¬ 0 < value.toRat := fun above =>
          positive (Binary64.isPositive_iff.mpr above)
        by_cases negligible : value.isNegligible = true
        · simp [ofLineLength, positive, negligible, notAbove]
        · simp [ofLineLength, positive, negligible, notAbove]
  | bool | text | indent | other => simp [ofLineLength]

end Resolution

namespace RuleOptions.Fits

variable {ruleId : String}

theorem eq_of_threshold {limit : Nat} (fits : Fits ruleId (.threshold limit)) :
    ruleId = "maxLineLength" := by
  unfold Fits at fits
  split_ifs at fits with isIndent isLength
  · simp at fits
  · exact isLength
  all_goals simp at fits

theorem one_le_size {indentation : IndentOptions} (fits : Fits ruleId (.indent indentation)) :
    1 ≤ indentation.size := by
  unfold Fits at fits
  split_ifs at fits
  · simpa using fits
  all_goals simp at fits

end RuleOptions.Fits

namespace RuleSettings

variable {settings : RuleSettings} {ruleId : String} {limit : Nat}

theorem resolve_maxLineLength {found : Setting}
    (configured : settings.get? "maxLineLength" = some found) :
    settings.resolve "maxLineLength" =
      if found.isOff then .disabled else .ofLineLength found := by
  simp [resolve, configured, Resolution.ofSetting]

/-- Only the rule for the length of lines gets a limit, by a number under its own key. -/
theorem resolve_eq_threshold_iff :
    settings.resolve ruleId = .enabled (.threshold limit) ↔
      ruleId = "maxLineLength" ∧ ∃ value, settings.get? "maxLineLength" = some (.number value) ∧
        0 < value.toRat ∧ Resolution.limitOf value = limit := by
  constructor
  · intro resolved
    have isLength : ruleId = "maxLineLength" := (fits_of_resolve resolved).eq_of_threshold
    rw [isLength] at resolved
    refine ⟨isLength, ?_⟩
    cases configured : settings.get? "maxLineLength" with
    | none => simp [resolve, configured] at resolved
    | some found =>
        rw [resolve_maxLineLength configured] at resolved
        by_cases off : found.isOff = true
        · simp [off] at resolved
        · rw [if_neg off, Resolution.ofLineLength_eq_threshold_iff] at resolved
          simpa using resolved
  · rintro ⟨isLength, value, configured, positive, limitEq⟩
    have resolved := Resolution.ofLineLength_eq_threshold_iff.mpr ⟨value, rfl, positive, limitEq⟩
    have isOn : (Setting.number value).isOff = false := rfl
    rw [isLength, resolve_maxLineLength configured, isOn, if_neg Bool.false_ne_true, resolved]

/-- A limit of zero comes from a line length between zero and one and from nothing else, and no
width of indentation is zero. -/
theorem resolve_eq_zeroThreshold_iff (settings : RuleSettings) (ruleId : String) :
    (settings.resolve ruleId = .enabled (.threshold 0) ↔
      ruleId = "maxLineLength" ∧ ∃ value, settings.get? "maxLineLength" = some (.number value) ∧
        0 < value.toRat ∧ value.toRat < 1) ∧
    ∀ indentation, settings.resolve ruleId = .enabled (.indent indentation) →
      1 ≤ indentation.size := by
  refine ⟨?_, fun indentation resolved => (fits_of_resolve resolved).one_le_size⟩
  rw [resolve_eq_threshold_iff]
  refine and_congr_right fun _ => exists_congr fun value => and_congr_right fun _ => ?_
  exact and_congr_right Resolution.limitOf_eq_zero_iff

/-- Half a character is a limit of zero characters. -/
theorem resolve_half :
    ∃ half, Binary64.ofDecimal? "0.5".toList = some half ∧ half.toRat = 1 / 2 ∧
      (RuleSettings.ofList [("maxLineLength", .number half)]).resolve "maxLineLength" =
        .enabled (.threshold 0) := by
  let half : Binary64 := ⟨false, Nat.pow 2 52, -53⟩
  have halfEq : half.toRat = 1 / 2 := by norm_num [half, Binary64.toRat]
  have positive : 0 < half.toRat := by norm_num [halfEq]
  have belowOne : half.toRat < 1 := by norm_num [halfEq]
  have limitEq : Resolution.limitOf half = 0 :=
    (Resolution.limitOf_eq_zero_iff positive).mpr belowOne
  refine ⟨half, by decide +kernel, halfEq, ?_⟩
  exact resolve_eq_threshold_iff.mpr ⟨rfl, half, rfl, positive, limitEq⟩

end RuleSettings

end ScriptLint
