import ScriptLint.Rule.NamingConvention
import ScriptLint.Rule.UeNamingConvention
import ScriptLint.Proofs.Rule.Basic
import ScriptLint.Proofs.Outline.NameEdges

/-!
# Rules for names

Each declaration of an outline is recorded in the code of a line of the document, so its name stands
on that line and fits on it from its column on.
-/

namespace ScriptLint

open Text Text.Pattern

variable {document : Document}

/-- The declaration stands on a line of the document, on which there is room for its name. -/
structure Declaration.IsInside (document : Document) (declaration : Declaration) : Prop where
  line_lt : declaration.line < document.lineCount
  name_le : declaration.character + declaration.name.length ≤
    (document.line declaration.line).length

/-- All declarations of an outline stand in the document. -/
theorem Outline.isInside_of_mem_declarations {declaration : Declaration}
    (member : declaration ∈ (Outline.ofDocument document).declarations) :
    declaration.IsInside document := by
  obtain ⟨index, line, before, after, entryMember, recorded⟩ :=
    Declaration.exists_isRecorded_of_mem_declarations member
  have fits := (recorded.shows entryMember).isPrefix.length_le
  have someLetter := List.length_pos_of_ne_nil recorded.nonempty
  rw [List.length_drop] at fits
  constructor
  · rw [recorded.line_eq]
    exact (Document.holds_of_mem_zipIdx entryMember).index_lt
  · omega

variable (document)

theorem NamingConvention.succeeds (options : RuleOptions) : rule.Succeeds document options := by
  have points : Issue.AllPointInto document (issues document) := by
    intro issue member
    simp only [issues] at member
    split at member
    · exact absurd member List.not_mem_nil
    · obtain ⟨declaration, reported, rfl⟩ := List.mem_map.mp member
      have inside := Outline.isInside_of_mem_declarations (List.mem_of_mem_filter reported)
      exact RuleInfo.pointsInto_issue (by decide) inside.line_lt inside.name_le
  exact .ok points

theorem UeNamingConvention.succeeds (options : RuleOptions) : rule.Succeeds document options := by
  have points : Issue.AllPointInto document (issues document) := by
    intro issue member
    simp only [issues] at member
    split at member
    · obtain ⟨declaration, reported, rfl⟩ := List.mem_map.mp member
      have inside := Outline.isInside_of_mem_declarations (List.mem_of_mem_filter reported)
      exact RuleInfo.pointsInto_issue (by decide) inside.line_lt inside.name_le
    · exact absurd member List.not_mem_nil
  exact .ok points

end ScriptLint
