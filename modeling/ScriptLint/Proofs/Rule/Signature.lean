import ScriptLint.Proofs.Linter.Isolation
import ScriptLint.Proofs.Outcome
import ScriptLint.Proofs.Rule.Basic

/-!
# Whose issues they are

Every issue that a rule of the catalogue reports bears the identifier and the severity of the rule.
All these severities are the same: whatever the size limit and the settings, the linter reports
warnings only.
-/

namespace ScriptLint

open Text

/-- The issue bears the identifier and the severity of the rule. -/
structure Issue.IsOf (info : RuleInfo) (issue : Issue) : Prop where
  ruleId : issue.ruleId = info.id
  severity : issue.severity = info.severity

/-- Every issue that the rule reports is its own. -/
def Rule.Signs (rule : Rule) : Prop :=
  ∀ document options issues, rule.check document options = .ok issues →
    ∀ issue ∈ issues, issue.IsOf rule.toRuleInfo

namespace RuleInfo

variable {info : RuleInfo}

theorem isOf_issue (line character length : Nat) (message : String) :
    (info.issue line character length message).IsOf info :=
  ⟨rfl, rfl⟩

theorem isOf_openIssue (line character : Nat) (message : String) :
    (info.openIssue line character message).IsOf info :=
  ⟨rfl, rfl⟩

theorem isOf_of_issueOfMatch? {report : Match → Option Finding} {index : Nat} {line : ScannedLine}
    {found : Match} {issue : Issue}
    (reported : info.issueOfMatch? report index line found = .ok (some issue)) :
    issue.IsOf info := by
  unfold issueOfMatch? at reported
  split at reported
  · cases reported
  · split at reported
    · cases reported
    · obtain ⟨length, _, ⟨⟩⟩ := exists_of_bind_eq_ok reported
      exact isOf_issue _ _ _ _

theorem isOf_of_reportMatches {pattern : Pattern} {report : Match → Option Finding}
    {document : Document} {issues : List Issue}
    (reported : info.reportMatches pattern report document = .ok issues) :
    ∀ issue ∈ issues, issue.IsOf info := by
  obtain ⟨results, resultsEq, ⟨⟩⟩ := exists_of_bind_eq_ok reported
  intro issue member
  obtain ⟨ofLine, lineMember, issueMember⟩ := List.mem_flatten.mp (Issue.mem_sorted.mp member)
  obtain ⟨entry, _, found⟩ := exists_of_mem_mapM resultsEq lineMember
  by_cases isCode : entry.1.isCode = true
  · rw [if_pos isCode] at found
    obtain ⟨options, optionsEq, ⟨⟩⟩ := exists_of_bind_eq_ok found
    obtain ⟨option, optionMember, optionEq⟩ := List.mem_filterMap.mp issueMember
    obtain ⟨occurrence, _, own⟩ := exists_of_mem_mapM optionsEq optionMember
    have isIssue : option = some issue := optionEq
    rw [isIssue] at own
    exact isOf_of_issueOfMatch? own
  · rw [if_neg isCode] at found
    cases found
    exact absurd issueMember List.not_mem_nil

end RuleInfo

/-! ## The rules of the catalogue -/

theorem MaxLineLength.signs : rule.Signs := by
  intro document options issues checked issue member
  cases options with
  | threshold limit =>
      cases checked
      obtain ⟨entry, _, found⟩ := List.mem_filterMap.mp member
      simp only [issueOfLine?] at found
      split at found
      · cases found
        exact RuleInfo.isOf_issue _ _ _ _
      · cases found
  | _ => cases checked

theorem Indent.signs : rule.Signs := by
  intro document options issues checked issue member
  cases options with
  | indent options =>
      have found : Indent.issues options document = .ok issues := checked
      obtain ⟨results, resultsEq, ⟨⟩⟩ := exists_of_bind_eq_ok found
      obtain ⟨ofLine, lineMember, issueMember⟩ := List.mem_flatten.mp member
      obtain ⟨entry, _, found⟩ := exists_of_mem_mapM resultsEq lineMember
      simp only [issuesOfLine] at found
      split at found
      · cases found
        exact absurd issueMember List.not_mem_nil
      · obtain ⟨wrong, _, ⟨⟩⟩ := exists_of_bind_eq_ok found
        obtain ⟨message, _, rfl⟩ := List.mem_map.mp issueMember
        exact RuleInfo.isOf_issue _ _ _ _
  | _ => cases checked

theorem Semicolons.signs : rule.Signs := by
  intro document options issues checked issue member
  cases options with
  | semicolons style =>
      cases checked
      obtain ⟨placed, _, found⟩ := List.mem_filterMap.mp member
      simp only [issueOfLine?] at found
      split at found
      · split at found
        · cases found
          exact RuleInfo.isOf_issue _ _ _ _
        · cases found
          exact RuleInfo.isOf_issue _ _ _ _
        · cases found
      · cases found
  | _ => cases checked

theorem Quotes.signs : rule.Signs := by
  intro document options issues checked
  cases options with
  | quotes style => exact RuleInfo.isOf_of_reportMatches checked
  | _ => cases checked

theorem NoConsole.signs : rule.Signs :=
  fun _ _ _ checked => RuleInfo.isOf_of_reportMatches checked

theorem NoVar.signs : rule.Signs :=
  fun _ _ _ checked => RuleInfo.isOf_of_reportMatches checked

theorem NoAny.signs : rule.Signs :=
  fun _ _ _ checked => RuleInfo.isOf_of_reportMatches checked

theorem NoEmptyFunctions.signs : rule.Signs := by
  intro document options issues checked issue member
  obtain ⟨found, foundEq, ⟨⟩⟩ := exists_of_bind_eq_ok checked
  obtain ⟨option, optionMember, optionEq⟩ :=
    List.mem_filterMap.mp (Issue.mem_sorted.mp member)
  obtain ⟨occurrence, _, own⟩ := exists_of_mem_mapM foundEq optionMember
  have isIssue : option = some issue := optionEq
  rw [isIssue] at own
  simp only [issueOfMatch?] at own
  split at own
  · cases own
  · split at own
    · cases own
    · obtain ⟨length, _, ⟨⟩⟩ := exists_of_bind_eq_ok own
      exact RuleInfo.isOf_issue _ _ _ _

theorem NoTrailingWhitespace.signs : rule.Signs := by
  intro document options issues checked issue member
  cases checked
  obtain ⟨entry, _, found⟩ := List.mem_filterMap.mp member
  simp only [issueOfLine?] at found
  split at found
  · cases found
  · cases found
    exact RuleInfo.isOf_issue _ _ _ _

theorem NamingConvention.signs : rule.Signs := by
  intro document options issues checked issue member
  cases checked
  simp only [NamingConvention.issues] at member
  split at member
  · exact absurd member List.not_mem_nil
  · obtain ⟨declaration, _, rfl⟩ := List.mem_map.mp member
    exact RuleInfo.isOf_issue _ _ _ _

theorem UeNamingConvention.signs : rule.Signs := by
  intro document options issues checked issue member
  cases checked
  simp only [UeNamingConvention.issues] at member
  split at member
  · obtain ⟨declaration, _, rfl⟩ := List.mem_map.mp member
    exact RuleInfo.isOf_issue _ _ _ _
  · exact absurd member List.not_mem_nil

namespace FunctionEmptyLine

theorem isOf_of_issueOfHead? {kind : HeadKind} {depth : Nat} {lines : List PlacedLine}
    {issue : Issue} (found : issueOfHead? kind depth lines = some issue) : issue.IsOf info := by
  unfold issueOfHead? at found
  split at found
  · cases found
  · split at found
    · cases found
    · cases found
      exact RuleInfo.isOf_openIssue _ _ _

theorem isOf_of_mem_issuesOfLines {lines : List PlacedLine} {issue : Issue}
    (member : issue ∈ issuesOfLines lines) : issue.IsOf info := by
  induction lines with
  | nil => exact absurd member List.not_mem_nil
  | cons placed rest inductionHypothesis =>
      rw [issuesOfLines, List.mem_append] at member
      rcases member with here | below
      · have found := Option.mem_toList.mp here
        by_cases begins : placed.line.beginsCode = true
        · rw [if_pos begins] at found
          obtain ⟨kind, _, reported⟩ := Option.bind_eq_some_iff.mp found
          exact isOf_of_issueOfHead? reported
        · rw [if_neg begins] at found
          cases found
      · exact inductionHypothesis below

theorem signs : rule.Signs := by
  intro document options issues checked issue member
  cases checked
  exact isOf_of_mem_issuesOfLines member

end FunctionEmptyLine

theorem ArrayCopy.signs : rule.Signs := by
  intro document options issues checked issue member
  cases checked
  obtain ⟨line, _, rfl⟩ := List.mem_map.mp member
  exact RuleInfo.isOf_issue _ _ _ _

theorem TrailingComma.signs : rule.Signs := by
  intro document options issues checked issue member
  cases checked
  obtain ⟨placed, _, found⟩ := List.mem_filterMap.mp member
  simp only [issueOfLine?] at found
  split at found
  · cases found
    exact RuleInfo.isOf_issue _ _ _ _
  · cases found

theorem Registry.signs_of_mem {rule : Rule} (member : rule ∈ catalogue) : rule.Signs := by
  simp only [catalogue, List.mem_cons, List.not_mem_nil, or_false] at member
  rcases member with rfl | rfl | rfl | rfl | rfl | rfl | rfl | rfl | rfl | rfl | rfl | rfl | rfl | rfl
  · exact MaxLineLength.signs
  · exact Indent.signs
  · exact Semicolons.signs
  · exact Quotes.signs
  · exact NoConsole.signs
  · exact NoVar.signs
  · exact NoAny.signs
  · exact NoEmptyFunctions.signs
  · exact NoTrailingWhitespace.signs
  · exact NamingConvention.signs
  · exact UeNamingConvention.signs
  · exact FunctionEmptyLine.signs
  · exact ArrayCopy.signs
  · exact TrailingComma.signs

theorem Registry.severity_eq_warning {rule : Rule} (member : rule ∈ catalogue) :
    rule.severity = .warning := by
  simp only [catalogue, List.mem_cons, List.not_mem_nil, or_false] at member
  rcases member with rfl | rfl | rfl | rfl | rfl | rfl | rfl | rfl | rfl | rfl | rfl | rfl | rfl | rfl
  all_goals rfl

theorem Registry.ruleId_of_mem_run {rule : Rule} (member : rule ∈ catalogue) {document : Document}
    {settings : RuleSettings} {issue : Issue}
    (reported : issue ∈ (rule.run document settings).issues) : issue.ruleId = rule.id := by
  have adds := rule.adds_report_run document settings
  have added : issue ∈ (rule.run document settings).report.issues := reported
  generalize (rule.run document settings).report = addition at adds added
  cases adds with
  | passed resolved checked =>
      exact (signs_of_mem member document _ _ checked issue added).ruleId
  | disabled | malformed | refused | crashed => exact absurd added List.not_mem_nil

theorem Registry.filter_issues_run {rule : Rule} (member : rule ∈ catalogue) (document : Document)
    (settings : RuleSettings) (id : String) :
    (rule.run document settings).issues.filter (fun issue => issue.ruleId == id) =
      if rule.id = id then (rule.run document settings).issues else [] := by
  by_cases own : rule.id = id
  · rw [if_pos own, List.filter_eq_self]
    intro issue reported
    rw [beq_iff_eq, ruleId_of_mem_run member reported, own]
  · rw [if_neg own, List.filter_eq_nil_iff]
    intro issue reported
    rwa [beq_iff_eq, ruleId_of_mem_run member reported]

theorem flatMap_ite_id {rules : List Rule} {rule : Rule} (issuesOf : Rule → List Issue)
    (distinct : (rules.map (·.id)).Nodup) (member : rule ∈ rules) :
    (rules.flatMap fun other => if other.id = rule.id then issuesOf other else []) =
      issuesOf rule := by
  induction rules with
  | nil => exact absurd member List.not_mem_nil
  | cons first others inductionHypothesis =>
      rw [List.map_cons, List.nodup_cons] at distinct
      rw [List.flatMap_cons]
      rcases List.mem_cons.mp member with here | later
      · have nothing : (others.flatMap fun other =>
            if other.id = rule.id then issuesOf other else []) = [] := by
          rw [List.flatMap_eq_nil_iff]
          intro other otherMember
          refine if_neg fun same => distinct.1 ?_
          rw [← here, ← same]
          exact List.mem_map_of_mem otherMember
        rw [nothing, List.append_nil, ← here, if_pos rfl]
      · have different : first.id ≠ rule.id := fun same =>
          distinct.1 (same ▸ List.mem_map_of_mem later)
        rw [if_neg different, List.nil_append, inductionHypothesis distinct.2 later]

/-- Whatever else is reported, the issues with the identifier of a rule are those of the rule. -/
theorem Linter.filter_issues_lint {rule : Rule} (listed : rule ∈ Registry.catalogue)
    (document : Document) (settings : RuleSettings) :
    (({} : Linter).lint document settings).issues.filter (fun issue => issue.ruleId == rule.id) =
      (rule.run document settings).issues := by
  have distinct : (Registry.catalogue.map (·.id)).Nodup := by decide
  have unlimited : ∀ limit, ({} : Linter).sizeLimit = some limit → document.size ≤ limit := nofun
  have issuesEq : (({} : Linter).lint document settings).issues =
      Registry.catalogue.flatMap fun other => (other.run document settings).issues := by
    rw [lint_eq_joined unlimited, LintReport.joined, List.flatMap_map]
    exact congrArg (List.flatMap _) Registry.rules_builtin
  rw [issuesEq, List.filter_flatMap, List.flatMap_congr fun other otherListed =>
    Registry.filter_issues_run otherListed document settings rule.id]
  exact flatMap_ite_id (fun other => (other.run document settings).issues) distinct listed

/-- Whatever the size limit, the linter reports warnings only. -/
theorem Linter.severity_of_mem_issues {sizeLimit : Option Nat} {document : Document}
    {settings : RuleSettings} {issue : Issue}
    (member : issue ∈ (Linter.lint { sizeLimit } document settings).issues) :
    issue.severity = .warning := by
  by_cases within : ∀ limit, sizeLimit = some limit → document.size ≤ limit
  · rw [lint_eq_joined within] at member
    obtain ⟨addition, added, issueMember⟩ := List.mem_flatMap.mp member
    obtain ⟨rule, ruleMember, rfl⟩ := List.mem_map.mp added
    have listed : rule ∈ Registry.catalogue := Registry.rules_builtin ▸ ruleMember
    have adds := rule.adds_report_run document settings
    generalize (rule.run document settings).report = addition at adds issueMember
    cases adds with
    | passed resolved checked =>
        have own := Registry.signs_of_mem listed document _ _ checked issue issueMember
        rw [own.severity, Registry.severity_eq_warning listed]
    | disabled | malformed | refused | crashed => exact absurd issueMember List.not_mem_nil
  · simp only [not_forall, Nat.not_le] at within
    obtain ⟨limit, isLimit, beyond⟩ := within
    rw [lint_eq_oversized isLimit beyond] at member
    exact absurd member List.not_mem_nil

end ScriptLint
