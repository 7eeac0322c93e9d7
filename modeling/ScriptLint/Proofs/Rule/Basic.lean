import ScriptLint.Rule.TrailingComma
import ScriptLint.Proofs.Document.Lines
import ScriptLint.Proofs.Text.Matches

/-!
# Places of issues

An issue points into a document if its line is one of the document's, and its characters are those
of the line. The rule for trailing commas alone may point behind the last character. Rules that
report the matches of a pattern in the code point into the document if what they report begins with
a character that no comment hides, because the columns of its two ends are then in order.
-/

namespace ScriptLint

open Text

/-- The issue stands on a line of the document, and inside it. -/
structure Issue.PointsInto (document : Document) (issue : Issue) : Prop where
  line_lt : issue.line < document.lineCount
  character_le : issue.character ≤ (document.line issue.line).length
  span_le : issue.ruleId ≠ "trailingComma" → ∀ length, issue.length = some length →
    issue.character + length ≤ (document.line issue.line).length
  comma_length : issue.ruleId = "trailingComma" → issue.length = some 1

/-- All of the issues point into the document. -/
def Issue.AllPointInto (document : Document) (issues : List Issue) : Prop :=
  ∀ issue ∈ issues, issue.PointsInto document

/-- The outcome is a result, and the result has a property. -/
def Yields {ε α : Type} (outcome : Except ε α) (holds : α → Prop) : Prop :=
  ∃ result, outcome = .ok result ∧ holds result

/-- The check gives issues, and all of them point into the document. -/
def Rule.Succeeds (rule : Rule) (document : Document) (options : RuleOptions) : Prop :=
  Yields (rule.check document options) (Issue.AllPointInto document)

/-! ## Steps that may fail -/

namespace Yields

variable {ε α β : Type}

theorem ok {result : α} {holds : α → Prop} (proof : holds result) :
    Yields (.ok result : Except ε α) holds :=
  ⟨result, rfl, proof⟩

theorem mono {outcome : Except ε α} {holds weaker : α → Prop} (yields : Yields outcome holds)
    (weakens : ∀ result, holds result → weaker result) : Yields outcome weaker := by
  obtain ⟨result, outcomeEq, proof⟩ := yields
  exact ⟨result, outcomeEq, weakens result proof⟩

theorem bind {outcome : Except ε α} {next : α → Except ε β} {holds : α → Prop}
    {holdsNext : β → Prop} (yields : Yields outcome holds)
    (further : ∀ result, holds result → Yields (next result) holdsNext) :
    Yields (outcome >>= next) holdsNext := by
  obtain ⟨result, outcomeEq, proof⟩ := yields
  rw [outcomeEq]
  exact further result proof

theorem mapM {step : α → Except ε β} {items : List α} {holds : β → Prop}
    (each : ∀ item ∈ items, Yields (step item) holds) :
    Yields (items.mapM step) fun results => ∀ result ∈ results, holds result := by
  induction items with
  | nil => exact .ok nofun
  | cons first rest inductionHypothesis =>
      rw [List.forall_mem_cons] at each
      rw [List.mapM_cons]
      refine each.1.bind fun result proof => ?_
      refine (inductionHypothesis each.2).bind fun results proofs => ?_
      exact .ok (List.forall_mem_cons.mpr ⟨proof, proofs⟩)

end Yields

theorem yields_spanLength {start stop : Nat} (ordered : start ≤ stop) :
    Yields (spanLength start stop) fun length => start + length = stop :=
  ⟨stop - start, if_pos ordered, Nat.add_sub_cancel' ordered⟩

/-! ## Issues of a rule -/

variable {info : RuleInfo} {document : Document} {line : ScannedLine} {index : Nat}

/-- An issue that does not end behind the end of its line points into the document. -/
theorem RuleInfo.pointsInto_issue (notComma : info.id ≠ "trailingComma")
    {character length : Nat} {message : String} (below : index < document.lineCount)
    (inside : character + length ≤ (document.line index).length) :
    (info.issue index character length message).PointsInto document where
  line_lt := below
  character_le := Nat.le_trans (Nat.le_add_right character length) inside
  span_le _ _ lengthEq := Option.some.inj lengthEq ▸ inside
  comma_length isComma := absurd isComma notComma

theorem Issue.mem_sorted {issues : List Issue} {issue : Issue} :
    issue ∈ Issue.sorted issues ↔ issue ∈ issues :=
  List.mem_mergeSort

/-! ## Matches in the code -/

namespace RuleInfo

variable {report : Match → Option Finding} {pattern : Pattern}

theorem yields_issueOfMatch? (notComma : info.id ≠ "trailingComma")
    (holds : document.Holds index line) {found : Match}
    (shows : ∀ finding, report found = some finding → ShowsAt line.code finding.start) :
    Yields (info.issueOfMatch? report index line found) fun issue =>
      ∀ reported ∈ issue, reported.PointsInto document := by
  unfold issueOfMatch?
  split
  · exact .ok nofun
  · next finding isFinding =>
      by_cases inTemplate : line.isInTemplate finding.start = true
      · rw [if_pos inTemplate]
        exact .ok nofun
      · rw [if_neg inTemplate]
        have columns :
            line.column finding.start ≤ line.column (finding.start + finding.size) :=
          charColumn_le_charColumn (holds.isBoundary_text (shows finding isFinding))
            (Nat.le_add_right _ _)
        have bounded : line.column (finding.start + finding.size) ≤ line.text.length :=
          charColumn_le_length line.text _
        refine (yields_spanLength columns).bind fun length lengthEq => .ok ?_
        intro reported same
        rw [← Option.some.inj same]
        apply pointsInto_issue notComma holds.index_lt
        rw [holds.line_eq, lengthEq]
        exact bounded

/-- A rule that reports the matches of a pattern in the code gives issues, and they have a property
that the issue of each match has. -/
theorem yields_reportMatches_of {holds : Issue → Prop}
    (each : ∀ entry ∈ document.scan.zipIdx, ∀ found ∈ pattern.searchAll entry.1.code,
      Yields (info.issueOfMatch? report entry.2 entry.1 found) fun issue =>
        ∀ reported ∈ issue, holds reported) :
    Yields (info.reportMatches pattern report document) fun issues =>
      ∀ issue ∈ issues, holds issue := by
  refine (Yields.mapM (fun entry entryMember => ?each) :
    Yields _ fun results => ∀ issues ∈ results, ∀ issue ∈ issues, holds issue).bind
      fun results allHold => .ok ?flat
  case each =>
    by_cases isCode : entry.1.isCode = true
    · rw [if_pos isCode]
      refine (Yields.mapM (each entry entryMember)).bind fun found allHold => .ok ?_
      intro issue member
      obtain ⟨option, optionMember, optionEq⟩ := List.mem_filterMap.mp member
      exact allHold option optionMember issue optionEq
    · rw [if_neg isCode]
      exact .ok nofun
  case flat =>
    intro issue member
    rw [Issue.mem_sorted, List.mem_flatten] at member
    obtain ⟨issues, issuesMember, issueMember⟩ := member
    exact allHold issues issuesMember issue issueMember

/-- If each match is reported where the code shows a character, the issues point into the
document. -/
theorem yields_reportMatches (notComma : info.id ≠ "trailingComma")
    (shows : ∀ code found finding, pattern.IsMatch code found → report found = some finding →
      ShowsAt code finding.start) :
    Yields (info.reportMatches pattern report document) (Issue.AllPointInto document) := by
  apply yields_reportMatches_of
  intro entry member found foundMember
  apply yields_issueOfMatch? notComma (Document.holds_of_mem_zipIdx member)
  have isMatch := Pattern.isMatch_of_mem_searchAll foundMember
  exact fun finding => shows entry.1.code found finding isMatch

end RuleInfo

end ScriptLint
