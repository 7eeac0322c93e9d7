import ScriptLint.Proofs.Outcome
import ScriptLint.Proofs.Rule.ArrayCopy
import ScriptLint.Proofs.Rule.Lines
import ScriptLint.Proofs.Rule.Matches
import ScriptLint.Proofs.Rule.Names
import ScriptLint.Proofs.Rule.NoEmptyFunctions
import ScriptLint.Proofs.Text.MatchOrder
import Mathlib.Data.List.Forall2

/-!
# The order of issues

Some rules sort their issues. The others visit the lines from the first on and report on the line
they visit, so their issues ascend if those of each line do: most report one at most, the rule for
indentation reports all of a line at its first character, and the names that the rule for framework
scripts reports are recorded by successive matches of one pattern.
-/

namespace ScriptLint

open Text Text.Pattern

/-- The issues come in ascending order of their places. -/
def Issue.IsAscending (issues : List Issue) : Prop :=
  issues.Pairwise fun first second =>
    first.line < second.line ∨ (first.line = second.line ∧ first.character ≤ second.character)

/-- Whatever the rule returns is in ascending order. -/
def Rule.Ascends (rule : Rule) : Prop :=
  ∀ document options issues, rule.check document options = .ok issues → Issue.IsAscending issues

namespace Issue

theorem isAscending_sorted (issues : List Issue) : IsAscending (sorted issues) := by
  have transitive : ∀ first second third : Issue, first.notAfter second = true →
      second.notAfter third = true → first.notAfter third = true := by
    intro first second third
    simp only [notAfter, Bool.or_eq_true, Bool.and_eq_true, decide_eq_true_eq, beq_iff_eq]
    omega
  have total : ∀ first second : Issue,
      (first.notAfter second || second.notAfter first) = true := by
    intro first second
    simp only [notAfter, Bool.or_eq_true, Bool.and_eq_true, decide_eq_true_eq, beq_iff_eq]
    omega
  refine (List.pairwise_mergeSort transitive total issues).imp fun {first second} ordered => ?_
  simpa only [notAfter, Bool.or_eq_true, Bool.and_eq_true, decide_eq_true_eq, beq_iff_eq]
    using ordered

/-! ## Line by line -/

section Lines

variable {α : Type} {number : α → Nat} {entries : List α}

theorem exists_line_of_mem_flatten {results : List (List Issue)} {issue : Issue}
    (each : List.Forall₂ (fun entry issues =>
      (∀ issue ∈ issues, issue.line = number entry) ∧ IsAscending issues) entries results)
    (member : issue ∈ results.flatten) : ∃ entry ∈ entries, issue.line = number entry := by
  induction each with
  | nil => exact absurd member List.not_mem_nil
  | cons own _ inductionHypothesis =>
      rw [List.flatten_cons, List.mem_append] at member
      rcases member with here | later
      · exact ⟨_, List.mem_cons_self, own.1 issue here⟩
      · obtain ⟨entry, entryMember, onLine⟩ := inductionHypothesis later
        exact ⟨entry, List.mem_cons_of_mem _ entryMember, onLine⟩

/-- The issues of ascending lines ascend if those of each line do. -/
theorem isAscending_flatten {results : List (List Issue)}
    (ordered : entries.Pairwise fun first second => number first < number second)
    (each : List.Forall₂ (fun entry issues =>
      (∀ issue ∈ issues, issue.line = number entry) ∧ IsAscending issues) entries results) :
    IsAscending results.flatten := by
  induction each with
  | nil => exact .nil
  | cons own others inductionHypothesis =>
      rw [List.pairwise_cons] at ordered
      refine List.pairwise_append.mpr
        ⟨own.2, inductionHypothesis ordered.2, fun first here second later => ?_⟩
      obtain ⟨below, belowMember, onLine⟩ := exists_line_of_mem_flatten others later
      left
      rw [own.1 first here, onLine]
      exact ordered.1 below belowMember

theorem isAscending_flatMap {issuesOf : α → List Issue}
    (ordered : entries.Pairwise fun first second => number first < number second)
    (lines : ∀ entry ∈ entries, ∀ issue ∈ issuesOf entry, issue.line = number entry)
    (each : ∀ entry ∈ entries, IsAscending (issuesOf entry)) :
    IsAscending (entries.flatMap issuesOf) := by
  rw [List.flatMap_def]
  apply isAscending_flatten ordered
  rw [List.forall₂_map_right_iff, List.forall₂_same]
  exact fun entry member => ⟨lines entry member, each entry member⟩

/-- Rules that report at most one issue on each line report in ascending order. -/
theorem isAscending_filterMap {issueOf? : α → Option Issue}
    (ordered : entries.Pairwise fun first second => number first < number second)
    (lines : ∀ entry issue, issueOf? entry = some issue → issue.line = number entry) :
    IsAscending (entries.filterMap issueOf?) := by
  refine List.pairwise_filterMap.mpr (ordered.imp fun before issue found later foundLater => ?_)
  left
  rw [lines _ issue found, lines _ later foundLater]
  exact before

end Lines

end Issue

/-! ## Numbered lines -/

theorem pairwise_zipIdx {α : Type} (items : List α) (start : Nat) :
    (items.zipIdx start).Pairwise fun first second => first.2 < second.2 := by
  apply List.pairwise_map.mp
  rw [List.zipIdx_map_snd]
  exact List.pairwise_lt_range' 1

theorem PlacedLine.pairwise_ofLines (start : Nat) (lines : List ScannedLine) :
    (PlacedLine.ofLines start lines).Pairwise fun first second => first.index < second.index := by
  have numbers : (PlacedLine.ofLines start lines).map (·.index) =
      List.range' start lines.length := by
    induction lines generalizing start with
    | nil => rfl
    | cons line rest inductionHypothesis =>
        rw [ofLines, List.map_cons, inductionHypothesis, List.length_cons, List.range'_succ]
  apply List.pairwise_map.mp
  rw [numbers]
  exact List.pairwise_lt_range' 1

/-! ## Rules that sort -/

theorem RuleInfo.isAscending_of_reportMatches {info : RuleInfo} {pattern : Pattern}
    {report : Match → Option Finding} {document : Document} {issues : List Issue}
    (reported : info.reportMatches pattern report document = .ok issues) :
    Issue.IsAscending issues := by
  obtain ⟨results, _, ⟨⟩⟩ := exists_of_bind_eq_ok reported
  exact Issue.isAscending_sorted results.flatten

theorem Quotes.ascends : rule.Ascends := by
  intro document options issues checked
  cases options with
  | quotes style => exact RuleInfo.isAscending_of_reportMatches checked
  | _ => cases checked

theorem NoConsole.ascends : rule.Ascends :=
  fun _ _ _ checked => RuleInfo.isAscending_of_reportMatches checked

theorem NoVar.ascends : rule.Ascends :=
  fun _ _ _ checked => RuleInfo.isAscending_of_reportMatches checked

theorem NoAny.ascends : rule.Ascends :=
  fun _ _ _ checked => RuleInfo.isAscending_of_reportMatches checked

theorem NoEmptyFunctions.ascends : rule.Ascends := by
  intro document options issues checked
  obtain ⟨found, _, ⟨⟩⟩ := exists_of_bind_eq_ok checked
  exact Issue.isAscending_sorted _

/-! ## Rules that visit the lines -/

theorem MaxLineLength.ascends : rule.Ascends := by
  intro document options issues checked
  cases options with
  | threshold limit =>
      cases checked
      refine Issue.isAscending_filterMap (pairwise_zipIdx document.lines 0) ?_
      intro entry issue found
      simp only [issueOfLine?] at found
      split at found
      · cases found
        rfl
      · cases found
  | _ => cases checked

theorem NoTrailingWhitespace.ascends : rule.Ascends := by
  intro document options issues checked
  cases checked
  refine Issue.isAscending_filterMap (pairwise_zipIdx document.scan 0) ?_
  intro entry issue found
  simp only [issueOfLine?] at found
  split at found
  · cases found
  · cases found
    rfl

theorem Semicolons.ascends : rule.Ascends := by
  intro document options issues checked
  cases options with
  | semicolons style =>
      cases checked
      refine Issue.isAscending_filterMap (PlacedLine.pairwise_ofLines 0 document.scan) ?_
      intro placed issue found
      simp only [issueOfLine?] at found
      split at found
      · split at found
        · cases found
          rfl
        · cases found
          rfl
        · cases found
      · cases found
  | _ => cases checked

theorem TrailingComma.ascends : rule.Ascends := by
  intro document options issues checked
  cases checked
  refine Issue.isAscending_filterMap (PlacedLine.pairwise_ofLines 0 document.scan) ?_
  intro placed issue found
  simp only [issueOfLine?] at found
  split at found
  · cases found
    rfl
  · cases found

namespace Indent

/-- All issues of a line stand at its first character. -/
theorem place_of_mem_issuesOfLine {options : IndentOptions} {index : Nat} {line : ScannedLine}
    {issues : List Issue} (found : issuesOfLine options index line = .ok issues) :
    ∀ issue ∈ issues, issue.line = index ∧ issue.character = 0 := by
  simp only [issuesOfLine] at found
  split at found
  · cases found
    exact fun issue member => absurd member List.not_mem_nil
  · obtain ⟨wrong, _, ⟨⟩⟩ := exists_of_bind_eq_ok found
    intro issue member
    obtain ⟨_, _, rfl⟩ := List.mem_map.mp member
    exact ⟨rfl, rfl⟩

theorem ascends : rule.Ascends := by
  intro document options issues checked
  cases options with
  | indent options =>
      have found : Indent.issues options document = .ok issues := checked
      obtain ⟨results, resultsEq, ⟨⟩⟩ := exists_of_bind_eq_ok found
      apply Issue.isAscending_flatten (pairwise_zipIdx document.scan 0)
      refine (forall₂_of_mapM resultsEq).imp fun entry issues found => ?_
      have places := place_of_mem_issuesOfLine found
      refine ⟨fun issue member => (places issue member).1, ?_⟩
      refine List.pairwise_of_forall_mem_list fun first firstMember second secondMember => ?_
      right
      rw [(places first firstMember).1, (places first firstMember).2,
        (places second secondMember).1]
      exact ⟨rfl, Nat.zero_le _⟩
  | _ => cases checked

end Indent

/-! ## Copies and names -/

namespace ArrayCopy

theorem reportedLines_sublist (lines : List CodeLine) : (reportedLines lines).Sublist lines := by
  fun_induction reportedLines lines with
  | case1 first second third fourth rest line reported inductionHypothesis =>
      have others : (reportedLines rest).Sublist (third :: fourth :: rest) :=
        (inductionHypothesis.cons fourth).cons third
      rcases mem_of_reportedLine? reported with rfl | rfl
      · exact (others.cons second).cons_cons line
      · exact (others.cons_cons line).cons first
  | case2 first second third fourth rest notReported inductionHypothesis =>
      exact inductionHypothesis.cons first
  | case3 => exact List.nil_sublist _

theorem index_eq_of_of? {index : Nat} {raw : List Char} {line : CodeLine}
    (found : CodeLine.of? index raw = some line) : line.index = index := by
  simp only [CodeLine.of?] at found
  split at found
  · cases found
  · cases found
    rfl

theorem pairwise_codeLines (document : Document) :
    (codeLines document).Pairwise fun first second => first.index < second.index := by
  refine List.pairwise_filterMap.mpr ((pairwise_zipIdx document.lines 0).imp ?_)
  intro entry below before line found lower foundLower
  rw [index_eq_of_of? found, index_eq_of_of? foundLower]
  exact before

theorem ascends : rule.Ascends := by
  intro document options issues checked
  cases checked
  refine List.pairwise_map.mpr
    (((pairwise_codeLines document).sublist (reportedLines_sublist _)).imp ?_)
  exact fun before => Or.inl before

end ArrayCopy

namespace Declaration

variable {document : Document} {index : Nat} {line : ScannedLine}
  {enclosing : Option (List Char)}

theorem place_of_member? {declaration : Declaration}
    (found : member? index line enclosing = some declaration) :
    declaration.line = index ∧ declaration.enclosing = enclosing := by
  unfold member? at found
  -- methods and properties are declared alike
  split at found
  all_goals
    obtain ⟨_, _, found⟩ := Option.bind_eq_some_iff.mp found
    obtain ⟨span, _, found⟩ := Option.bind_eq_some_iff.mp found
    split at found
    · cases found
    · cases found
      exact ⟨rfl, rfl⟩

/-- The declarations of a line stand on it, and they belong to the class around it. -/
theorem place_of_mem_ofLine {declaration : Declaration}
    (member : declaration ∈ ofLine index line enclosing) :
    declaration.line = index ∧ declaration.enclosing = enclosing := by
  unfold ofLine at member
  split at member
  · exact place_of_member? (Option.mem_toList.mp member)
  · rcases List.mem_append.mp member with isFunction | isLocal
    · obtain ⟨found, _, declared⟩ := List.mem_filterMap.mp isFunction
      obtain ⟨span, _, rfl⟩ := Option.map_eq_some_iff.mp declared
      exact ⟨rfl, rfl⟩
    · obtain ⟨found, _, declared⟩ := List.mem_filterMap.mp isLocal
      obtain ⟨span, _, rfl⟩ := Option.map_eq_some_iff.mp declared
      exact ⟨rfl, rfl⟩

theorem line_eq_of_mem_ofLine {declaration : Declaration}
    (member : declaration ∈ ofLine index line enclosing) : declaration.line = index :=
  (place_of_mem_ofLine member).1

/-- Names that successive matches record come in the order of their columns. -/
theorem pairwise_recorded (holds : document.Holds index line) {pattern : Pattern}
    (bodiesEq : pattern.bodies 1 = [identifier]) {declare : Match → Span → Declaration}
    (columns : ∀ found span, (declare found span).character = line.column span.start) :
    ((pattern.searchAll line.code).filterMap fun found =>
      (found.group? 1).map (declare found)).Pairwise fun first second =>
        first.character ≤ second.character := by
  refine List.pairwise_filterMap.mpr ((pairwise_group_start pattern line.code 1).imp_of_mem ?_)
  intro found later member _ ordered first declared second declaredLater
  obtain ⟨span, recorded, rfl⟩ := Option.map_eq_some_iff.mp declared
  obtain ⟨laterSpan, recordedLater, rfl⟩ := Option.map_eq_some_iff.mp declaredLater
  have boundary : IsBoundary line.text span.start :=
    holds.isBoundary_text ((isMatch_of_mem_searchAll member).group_showsAt recorded
      (opensWith_of_bodies bodiesEq))
  rw [columns, columns]
  exact charColumn_le_charColumn boundary (ordered span recorded laterSpan recordedLater)

/-- The functions of a line come in the order of their columns. -/
theorem pairwise_functions (holds : document.Holds index line) :
    (functions index line enclosing).Pairwise fun first second =>
      first.character ≤ second.character :=
  pairwise_recorded holds bodies_functionPattern fun _ _ => rfl

/-- The variables of a line come in the order of their columns. -/
theorem pairwise_locals (holds : document.Holds index line) :
    (locals index line enclosing).Pairwise fun first second =>
      first.character ≤ second.character :=
  pairwise_recorded holds bodies_variablePattern fun _ _ => rfl

end Declaration

namespace UeNamingConvention

/-- Of the declarations of a line the functions are not reported, and there is either one member or
any number of variables. -/
theorem pairwise_reported {document : Document} {index : Nat} {line : ScannedLine}
    (holds : document.Holds index line) (enclosing : Option (List Char)) :
    ((Declaration.ofLine index line enclosing).filter (isReported document.scan)).Pairwise
      fun first second => first.character ≤ second.character := by
  unfold Declaration.ofLine
  split
  · cases Declaration.member? index line enclosing with
    | none => exact .nil
    | some member => exact (List.pairwise_singleton _ member).filter _
  · have noFunction : (Declaration.functions index line enclosing).filter
        (isReported document.scan) = [] := by
      rw [List.filter_eq_nil_iff]
      intro declaration member reported
      obtain ⟨found, _, declared⟩ := List.mem_filterMap.mp member
      obtain ⟨span, _, rfl⟩ := Option.map_eq_some_iff.mp declared
      simp [isReported] at reported
    rw [List.filter_append, noFunction, List.nil_append]
    exact (Declaration.pairwise_locals holds).filter _

theorem ascends : rule.Ascends := by
  intro document options issues checked
  cases checked
  simp only [UeNamingConvention.issues]
  split
  · rw [Outline.ofDocument]
    simp only [Outline.declarationsOf, List.filter_flatMap, List.map_flatMap]
    apply Issue.isAscending_flatMap (pairwise_zipIdx document.scan 0)
    · intro entry _ issue member
      obtain ⟨declaration, reported, rfl⟩ := List.mem_map.mp member
      have declared := List.mem_of_mem_filter reported
      split at declared
      · exact Declaration.line_eq_of_mem_ofLine declared
      · exact absurd declared List.not_mem_nil
    · intro entry member
      split
      · refine List.pairwise_map.mpr
          ((pairwise_reported (Document.holds_of_mem_zipIdx member) _).imp_of_mem ?_)
        intro first second firstMember secondMember ordered
        right
        -- both stand on the line of the entry, so only their columns matter
        have firstLine := Declaration.line_eq_of_mem_ofLine (List.mem_of_mem_filter firstMember)
        have secondLine := Declaration.line_eq_of_mem_ofLine (List.mem_of_mem_filter secondMember)
        exact ⟨firstLine.trans secondLine.symm, ordered⟩
      · exact .nil
  · exact .nil

end UeNamingConvention

/-! ## All rules that promise an order -/

/-- Under options that the rule does not refuse, an indentation of no width apart, the check of each
of these rules gives issues, and they come in ascending order. -/
theorem check_isAscending {rule : Rule} {document : Document} {options : RuleOptions}
    (listed : rule ∈ [MaxLineLength.rule, Indent.rule, Semicolons.rule, Quotes.rule,
      NoConsole.rule, NoVar.rule, NoAny.rule, NoEmptyFunctions.rule, NoTrailingWhitespace.rule,
      UeNamingConvention.rule, ArrayCopy.rule, TrailingComma.rule])
    (accepted : ∀ error, rule.check document options ≠ .error (.refused error))
    (wide : rule.id = "indent" → ∀ indentation, options = .indent indentation →
      1 ≤ indentation.size) :
    ∃ issues, rule.check document options = .ok issues ∧ Issue.IsAscending issues := by
  have assemble : rule.Succeeds document options → rule.Ascends →
      ∃ issues, rule.check document options = .ok issues ∧ Issue.IsAscending issues := by
    rintro ⟨issues, checked, _⟩ ascends
    exact ⟨issues, checked, ascends document options issues checked⟩
  simp only [List.mem_cons, List.not_mem_nil, or_false] at listed
  rcases listed with rfl | rfl | rfl | rfl | rfl | rfl | rfl | rfl | rfl | rfl | rfl | rfl
  · cases options with
    | threshold limit => exact assemble (MaxLineLength.succeeds document limit) MaxLineLength.ascends
    | _ => exact absurd rfl (accepted _)
  · cases options with
    | indent options =>
        exact assemble (Indent.succeeds document (wide rfl options rfl)) Indent.ascends
    | _ => exact absurd rfl (accepted _)
  · cases options with
    | semicolons style => exact assemble (Semicolons.succeeds document style) Semicolons.ascends
    | _ => exact absurd rfl (accepted _)
  · cases options with
    | quotes style => exact assemble (Quotes.succeeds document style) Quotes.ascends
    | _ => exact absurd rfl (accepted _)
  · exact assemble (NoConsole.succeeds document options) NoConsole.ascends
  · exact assemble (NoVar.succeeds document options) NoVar.ascends
  · exact assemble (NoAny.succeeds document options) NoAny.ascends
  · exact assemble (NoEmptyFunctions.succeeds document options) NoEmptyFunctions.ascends
  · exact assemble (NoTrailingWhitespace.succeeds document options) NoTrailingWhitespace.ascends
  · exact assemble (UeNamingConvention.succeeds document options) UeNamingConvention.ascends
  · exact assemble (ArrayCopy.succeeds document options) ArrayCopy.ascends
  · exact assemble (TrailingComma.succeeds document options) TrailingComma.ascends

/-- A line that is indented with a tab and a space has two issues, and the next line has one. -/
theorem check_isAscending_tab :
    (∀ error, Indent.rule.check ⟨"\t a\n  b".toList⟩ (.indent ⟨4, true⟩) ≠
      .error (.refused error)) ∧
    ∃ issues, Indent.rule.check ⟨"\t a\n  b".toList⟩ (.indent ⟨4, true⟩) = .ok issues ∧
      Issue.IsAscending issues ∧ issues.map (·.line) = [0, 0, 1] := by
  have checked : ∃ issues, Indent.rule.check ⟨"\t a\n  b".toList⟩ (.indent ⟨4, true⟩) = .ok issues ∧
      issues.map (·.line) = [0, 0, 1] := ⟨_, rfl, rfl⟩
  obtain ⟨found, foundEq, lines⟩ := checked
  have accepted : ∀ error, Indent.rule.check ⟨"\t a\n  b".toList⟩ (.indent ⟨4, true⟩) ≠
      .error (.refused error) := by
    intro error refused
    cases foundEq.symm.trans refused
  have wide : Indent.rule.id = "indent" → ∀ indentation : IndentOptions,
      RuleOptions.indent ⟨4, true⟩ = .indent indentation → 1 ≤ indentation.size := by
    rintro _ indentation ⟨⟩
    decide
  obtain ⟨issues, issuesEq, ascending⟩ :=
    check_isAscending (List.mem_cons_of_mem _ List.mem_cons_self) accepted wide
  have same : found = issues := Except.ok.inj (foundEq.symm.trans issuesEq)
  exact ⟨accepted, issues, issuesEq, ascending, same ▸ lines⟩

end ScriptLint
