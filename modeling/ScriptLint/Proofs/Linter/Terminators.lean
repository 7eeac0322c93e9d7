import ScriptLint.Proofs.Linter.Safety
import ScriptLint.Proofs.Rule.Padding

/-!
# Line terminators do not matter

The rules of the catalogue ignore what pads a document, and both ways of writing line terminators
come down to padding. So a text is reported alike on every platform, and with or without a line feed
at its end.
-/

namespace ScriptLint

open Text

theorem lint_padded {document padded : Document} (pads : document.IsPaddedTo padded)
    (settings : RuleSettings) :
    ({} : Linter).lint padded settings = ({} : Linter).lint document settings := by
  have sameRun : ∀ rule ∈ Registry.catalogue,
      rule.run padded settings = rule.run document settings := by
    intro rule member
    have sameCheck := Registry.ignoresPadding member document padded pads
    simp only [Rule.run, sameCheck]
  have sameReports : (Registry.catalogue.map fun rule => (rule.run padded settings).report) =
      Registry.catalogue.map fun rule => (rule.run document settings).report :=
    List.map_congr_left fun rule member => congrArg Verdict.report (sameRun rule member)
  rw [lint_eq_joined_catalogue, lint_eq_joined_catalogue, sameReports]

/-- Whatever the settings say, a text without carriage returns gives the same issues and the same
events if each of its line feeds is written as a carriage return with a line feed, and if a line
feed is added at its end. -/
theorem lint_ignores_terminators {text : List Char} (noReturn : '\r' ∉ text)
    (settings : RuleSettings) :
    ({} : Linter).lint ⟨withReturns text⟩ settings = ({} : Linter).lint ⟨text⟩ settings ∧
      ({} : Linter).lint ⟨text ++ ['\n']⟩ settings = ({} : Linter).lint ⟨text⟩ settings :=
  ⟨lint_padded (Document.isPaddedTo_withReturns noReturn) settings,
    lint_padded (Document.isPaddedTo_append_feed text) settings⟩

/-- An entry point of two lines whose variable is reported. -/
theorem lint_ignores_terminators_entry_point :
    '\r' ∉ "let x\nexport default A".toList ∧
    (({} : Linter).lint ⟨"let x\nexport default A".toList⟩
      (.ofList [("ueNamingConvention", .bool true)])).issues ≠ [] ∧
    ({} : Linter).lint ⟨"let x\r\nexport default A".toList⟩
        (.ofList [("ueNamingConvention", .bool true)]) =
      ({} : Linter).lint ⟨"let x\nexport default A".toList⟩
        (.ofList [("ueNamingConvention", .bool true)]) ∧
    ({} : Linter).lint ⟨"let x\nexport default A\n".toList⟩
        (.ofList [("ueNamingConvention", .bool true)]) =
      ({} : Linter).lint ⟨"let x\nexport default A".toList⟩
        (.ofList [("ueNamingConvention", .bool true)]) := by
  have noReturn : '\r' ∉ "let x\nexport default A".toList := by
    decide
  have reported : (({} : Linter).lint ⟨"let x\nexport default A".toList⟩
      (.ofList [("ueNamingConvention", .bool true)])).issues ≠ [] := by
    decide
  exact ⟨noReturn, reported, lint_ignores_terminators noReturn _⟩

end ScriptLint
