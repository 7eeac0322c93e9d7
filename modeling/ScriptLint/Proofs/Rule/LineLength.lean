import ScriptLint.Proofs.Rule.Order
import ScriptLint.Proofs.Rule.Signature
import ScriptLint.Proofs.Settings.Limits

/-!
# Long lines

The configured length of lines is a rational number, and the rule compares the number of characters
of a line with what is left of it after rounding down and after a cap. For a line of fewer
characters than the cap this is the comparison with the rational number itself.
-/

namespace ScriptLint

/-- The issues are those for the lines beyond a limit that are no comment lines, one for each of
them and in their order. Each covers what goes beyond the limit rounded down. -/
structure ReportsBeyond (limit : ℚ) (document : Document) (issues : List Issue) : Prop where
  reported_iff : ∀ index, (∃ issue ∈ issues, issue.line = index) ↔
    index < document.lineCount ∧ Comment.isCommentLine (document.line index) = false ∧
      limit < (document.line index).length
  floor_lt : ∀ issue ∈ issues, ⌊limit⌋₊ < (document.line issue.line).length
  character_eq : ∀ issue ∈ issues, issue.character = ⌊limit⌋₊
  length_eq : ∀ issue ∈ issues,
    issue.length = some ((document.line issue.line).length - ⌊limit⌋₊)
  ordered : issues.Pairwise fun first second => first.line < second.line

namespace MaxLineLength

variable {document : Document} {issue : Issue} {value : Binary64} {length limit : Nat}

/-- Neither rounding down nor the cap matters to a line. -/
theorem limitOf_lt_iff (positive : 0 < value.toRat) (short : length < 2 ^ 64) :
    Resolution.limitOf value < length ↔ value.toRat < length := by
  have capped : ¬ Resolution.greatestLimit < length := by
    have greatest : Resolution.greatestLimit = 2 ^ 64 - 1 := rfl
    omega
  rw [Resolution.limitOf_eq positive, min_lt_iff, or_iff_left capped, Nat.floor_lt positive.le]

theorem limitOf_eq_floor (positive : 0 < value.toRat) (short : length < 2 ^ 64)
    (exceeded : Resolution.limitOf value < length) :
    Resolution.limitOf value = ⌊value.toRat⌋₊ := by
  have greatest : Resolution.greatestLimit = 2 ^ 64 - 1 := rfl
  rw [Resolution.limitOf_eq positive] at exceeded ⊢
  omega

theorem mem_issues : issue ∈ issues limit document ↔
    ∃ index < document.lineCount, issueOfLine? limit index (document.line index) = some issue := by
  rw [issues, List.mem_filterMap]
  constructor
  · rintro ⟨entry, member, found⟩
    have isLine := List.mem_zipIdx_iff_getElem?.mp member
    have placed := Document.line_eq_of_getElem? isLine
    exact ⟨entry.2, placed.1, placed.2 ▸ found⟩
  · rintro ⟨index, below, found⟩
    have isLine : (document.line index, index) ∈ document.lines.zipIdx :=
      List.mem_zipIdx_iff_getElem?.mpr (Document.getElem?_lines below)
    exact ⟨_, isLine, found⟩

theorem issueOfLine?_eq_some {index : Nat} {line : List Char} :
    issueOfLine? limit index line = some issue ↔
      (Comment.isCommentLine line = false ∧ limit < line.length) ∧
        info.issue index limit (line.length - limit)
          s!"Line is {line.length} characters long, exceeding the limit of {limit}" = issue := by
  simp only [issueOfLine?, Option.ite_none_right_eq_some, Option.some.injEq, Bool.and_eq_true,
    Bool.not_eq_true', decide_eq_true_eq]

theorem exists_issue_iff (index : Nat) : (∃ issue ∈ issues limit document, issue.line = index) ↔
    index < document.lineCount ∧ Comment.isCommentLine (document.line index) = false ∧
      limit < (document.line index).length := by
  constructor
  · rintro ⟨issue, member, sameIndex⟩
    obtain ⟨place, below, found⟩ := mem_issues.mp member
    have reported := issueOfLine?_eq_some.mp found
    have samePlace : place = index := (congrArg Issue.line reported.2).trans sameIndex
    exact samePlace ▸ ⟨below, reported.1⟩
  · rintro ⟨below, reported⟩
    exact ⟨_, mem_issues.mpr ⟨index, below, issueOfLine?_eq_some.mpr ⟨reported, rfl⟩⟩, rfl⟩

theorem span_of_mem_issues (member : issue ∈ issues limit document) :
    limit < (document.line issue.line).length ∧ issue.character = limit ∧
      issue.length = some ((document.line issue.line).length - limit) := by
  obtain ⟨index, _, found⟩ := mem_issues.mp member
  obtain ⟨⟨_, exceeded⟩, rfl⟩ := issueOfLine?_eq_some.mp found
  exact ⟨exceeded, rfl, rfl⟩

theorem pairwise_issues (limit : Nat) (document : Document) :
    (issues limit document).Pairwise fun first second => first.line < second.line := by
  refine List.pairwise_filterMap.mpr ((pairwise_zipIdx document.lines 0).imp ?_)
  intro entry later below issue found further foundLater
  have sameLine : entry.2 = issue.line :=
    congrArg Issue.line (issueOfLine?_eq_some.mp found).2
  have sameLater : later.2 = further.line :=
    congrArg Issue.line (issueOfLine?_eq_some.mp foundLater).2
  rwa [← sameLine, ← sameLater]

theorem reportsBeyond_issues (positive : 0 < value.toRat)
    (short : ∀ line ∈ document.lines, line.length < 2 ^ 64) :
    ReportsBeyond value.toRat document (issues (Resolution.limitOf value) document) := by
  have shortLine : ∀ index, (document.line index).length < 2 ^ 64 := by
    intro index
    rw [Document.line, List.getD_eq_getElem?_getD]
    cases found : document.lines[index]? with
    | none => exact Nat.two_pow_pos 64
    | some line => exact short line (List.mem_of_getElem? found)
  have floorEq : ∀ issue ∈ issues (Resolution.limitOf value) document,
      Resolution.limitOf value = ⌊value.toRat⌋₊ := fun issue member =>
    limitOf_eq_floor positive (shortLine issue.line) (span_of_mem_issues member).1
  constructor
  case reported_iff =>
    intro index
    rw [exists_issue_iff, limitOf_lt_iff positive (shortLine index)]
  case floor_lt =>
    intro issue member
    rw [← floorEq issue member]
    exact (span_of_mem_issues member).1
  case character_eq =>
    intro issue member
    rw [← floorEq issue member]
    exact (span_of_mem_issues member).2.1
  case length_eq =>
    intro issue member
    rw [← floorEq issue member]
    exact (span_of_mem_issues member).2.2
  case ordered => exact pairwise_issues _ document

/-- Whatever finite number from one on is configured, the linter reports the lines with more
characters than that, as an exact comparison says. -/
theorem lint_reportsBeyond (document : Document) (settings : RuleSettings) (value : Binary64)
    (configured : settings.get? "maxLineLength" = some (.number value))
    (atLeastOne : 1 ≤ value.toRat)
    (short : ∀ line ∈ document.lines, line.length < 2 ^ 64) :
    ReportsBeyond value.toRat document
      ((({} : Linter).lint document settings).issues.filter
        fun issue => issue.ruleId == "maxLineLength") := by
  have positive : 0 < value.toRat := lt_of_lt_of_le one_pos atLeastOne
  have listed : rule ∈ Registry.catalogue := List.mem_cons_self
  have resolved : settings.resolve rule.id =
      .enabled (.threshold (Resolution.limitOf value)) :=
    RuleSettings.resolve_eq_threshold_iff.mpr ⟨rfl, value, configured, positive, rfl⟩
  have ownIssues : (rule.run document settings).issues =
      issues (Resolution.limitOf value) document := by
    rw [Rule.run, resolved]
    rfl
  have filtered := Linter.filter_issues_lint listed document settings
  rw [ownIssues] at filtered
  have idEq : rule.id = "maxLineLength" := rfl
  rw [idEq] at filtered
  rw [filtered]
  exact reportsBeyond_issues positive short

/-- Three and a half characters are exceeded by four. -/
theorem lint_reportsBeyond_half :
    let document : Document := ⟨"äöü
// äöü
äöüß".toList⟩
    let limit : Binary64 := ⟨false, 7, -1⟩
    let settings := RuleSettings.ofList [("maxLineLength", .number limit)]
    settings.get? "maxLineLength" = some (.number limit) ∧ 1 ≤ limit.toRat ∧
      (∀ line ∈ document.lines, line.length < 2 ^ 64) ∧
      ReportsBeyond limit.toRat document
        ((({} : Linter).lint document settings).issues.filter
          fun issue => issue.ruleId == "maxLineLength") ∧
      (({} : Linter).lint document settings).issues.map (fun issue =>
        (issue.line, issue.character, issue.length)) = [(2, 3, some 1)] := by
  intro document limit settings
  have configured : settings.get? "maxLineLength" = some (.number limit) := rfl
  have atLeastOne : 1 ≤ limit.toRat := by norm_num [limit, Binary64.toRat]
  have short : ∀ line ∈ document.lines, line.length < 2 ^ 64 := by decide
  exact ⟨configured, atLeastOne, short,
    lint_reportsBeyond document settings limit configured atLeastOne short, by decide +kernel⟩

end MaxLineLength

end ScriptLint
