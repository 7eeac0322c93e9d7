import ScriptLint.Rule.ArrayCopy
import ScriptLint.Proofs.Comment
import ScriptLint.Proofs.Rule.Basic

/-!
# Array copies

An issue for a copy covers as many characters as the code of the line has, from the first character
of the line that is no white space. A line of code does not begin with a block that closes on it, so
this much code fits on the line.
-/

namespace ScriptLint.ArrayCopy

open Text

variable {document : Document}

theorem mem_of_reportedLine? {first second third fourth line : CodeLine}
    (reported : reportedLine? first second third fourth = some line) :
    line = first ∨ line = second := by
  unfold reportedLine? at reported
  split at reported
  · exact Or.inl (Option.some.inj reported).symm
  · split at reported
    · exact Or.inr (Option.some.inj reported).symm
    · cases reported

/-- What is reported is a line of some window. -/
theorem mem_of_mem_reportedLines {lines : List CodeLine} {line : CodeLine}
    (member : line ∈ reportedLines lines) : line ∈ lines := by
  fun_induction reportedLines lines with
  | case1 first second third fourth rest reportedLine reported inductionHypothesis =>
      rcases List.mem_cons.mp member with here | later
      · rcases mem_of_reportedLine? reported with isFirst | isSecond
        · simp [here, isFirst]
        · simp [here, isSecond]
      · simp [inductionHypothesis later]
  | case2 first second third fourth rest notReported inductionHypothesis =>
      exact List.mem_cons_of_mem first (inductionHypothesis member)
  | case3 => exact absurd member List.not_mem_nil

theorem pointsInto_issueOf {line : CodeLine} (member : line ∈ codeLines document) :
    (issueOf line).PointsInto document := by
  obtain ⟨entry, entryMember, codeLine⟩ := List.mem_filterMap.mp member
  obtain ⟨below, lineEq⟩ :=
    Document.line_eq_of_getElem? (List.mem_zipIdx_iff_getElem?.mp entryMember)
  simp only [CodeLine.of?] at codeLine
  split at codeLine
  · cases codeLine
  · next isCode =>
      simp only [Bool.or_eq_true, not_or, Bool.not_eq_true, List.isEmpty_eq_false_iff] at isCode
      rw [← Option.some.inj codeLine]
      apply RuleInfo.pointsInto_issue (by decide) below
      rw [lineEq]
      exact Comment.length_code_le isCode.1.2 isCode.2

theorem succeeds (document : Document) (options : RuleOptions) :
    rule.Succeeds document options := by
  have points : Issue.AllPointInto document (issues document) := by
    intro issue member
    obtain ⟨line, reported, rfl⟩ := List.mem_map.mp member
    exact pointsInto_issueOf (mem_of_mem_reportedLines reported)
  exact .ok points

end ScriptLint.ArrayCopy
