import ScriptLint.Rule.FunctionEmptyLine
import ScriptLint.Rule.Indent
import ScriptLint.Rule.MaxLineLength
import ScriptLint.Rule.NoTrailingWhitespace
import ScriptLint.Rule.Semicolons
import ScriptLint.Proofs.Rule.Basic
import ScriptLint.Proofs.Text.Trim

/-!
# Rules that judge whole lines

These rules place their issues by the length of a line, by what is left of it or of its code after
trimming, or by a character at its end. A character that the code shows is one of the text, so there
is room for it on the line.
-/

namespace ScriptLint

open Text

variable (document : Document)

/-! ## Length and indentation -/

theorem MaxLineLength.succeeds (limit : Nat) : rule.Succeeds document (.threshold limit) := by
  have points : Issue.AllPointInto document (issues limit document) := by
    intro issue member
    obtain ⟨entry, entryMember, found⟩ := List.mem_filterMap.mp member
    obtain ⟨below, lineEq⟩ :=
      Document.line_eq_of_getElem? (List.mem_zipIdx_iff_getElem?.mp entryMember)
    simp only [issueOfLine?] at found
    split at found
    · next tooLong =>
        rw [Bool.and_eq_true, decide_eq_true_eq] at tooLong
        rw [← Option.some.inj found]
        apply RuleInfo.pointsInto_issue (by decide) below
        rw [lineEq]
        omega
    · cases found
  exact .ok points

namespace Indent

/-- The remainder is taken only if the width of an indentation is not zero. -/
theorem yields_wrongWidth? {options : IndentOptions} (positive : 1 ≤ options.size) (width : Nat) :
    Yields (wrongWidth? options width) fun _ => True := by
  have remains : Yields (remainder width options.size) fun _ => True :=
    ⟨width % options.size, if_neg (by omega), trivial⟩
  unfold wrongWidth?
  split
  · refine remains.bind fun rest _ => ?_
    split
    · exact .ok trivial
    · exact .ok trivial
  · exact .ok trivial

theorem yields_issuesOfLine {options : IndentOptions} (positive : 1 ≤ options.size) {index : Nat}
    {line : ScannedLine} (holds : document.Holds index line) :
    Yields (issuesOfLine options index line) (Issue.AllPointInto document) := by
  have fits : (leading line.text).length ≤ line.text.length :=
    (List.takeWhile_sublist _).length_le
  simp only [issuesOfLine]
  split
  · exact .ok nofun
  · refine (yields_wrongWidth? positive _).bind fun wrong _ => .ok ?_
    intro issue member
    obtain ⟨message, _, rfl⟩ := List.mem_map.mp member
    apply RuleInfo.pointsInto_issue (by decide) holds.index_lt
    rw [holds.line_eq, Nat.zero_add]
    exact fits

theorem succeeds {options : IndentOptions} (positive : 1 ≤ options.size) :
    rule.Succeeds document (.indent options) := by
  have yields : Yields (issues options document) (Issue.AllPointInto document) := by
    refine (Yields.mapM fun entry member => yields_issuesOfLine document positive
      (Document.holds_of_mem_zipIdx member)).bind fun results points => .ok ?_
    intro issue member
    obtain ⟨issues, issuesMember, issueMember⟩ := List.mem_flatten.mp member
    exact points issues issuesMember issue issueMember
  exact yields

end Indent

/-! ## The end of a line -/

theorem NoTrailingWhitespace.succeeds (options : RuleOptions) :
    rule.Succeeds document options := by
  have points : Issue.AllPointInto document (issues document) := by
    intro issue member
    obtain ⟨⟨line, index⟩, entryMember, found⟩ := List.mem_filterMap.mp member
    have holds : document.Holds index line := Document.holds_of_mem_zipIdx entryMember
    simp only [issueOfLine?] at found
    split at found
    · cases found
    · obtain ⟨trailing, textEq⟩ :
          ∃ trailing, line.text = content line.text ++ trailing :=
        ⟨_, (dropEndWhile_append_rtakeWhile _ line.text).symm⟩
      have columnEq := charColumn_append (content line.text) trailing
      rw [← textEq] at columnEq
      have lengths := congrArg List.length textEq
      rw [List.length_append] at lengths
      rw [← Option.some.inj found]
      apply RuleInfo.pointsInto_issue (by decide) holds.index_lt
      rw [holds.line_eq, ScannedLine.column, columnEq]
      omega
  exact .ok points

namespace Semicolons

/-- The mark at the end of the code is shown one byte before that end. -/
theorem showsAt_of_endsIn {code : List Char} (ends : endsIn ";" (trimEnd code) = true) :
    ShowsAt code (byteLength (trimEnd code) - 1) := by
  obtain ⟨before, codeEq⟩ := List.isSuffixOf_iff_suffix.mp ends
  have whole := dropEndWhile_append_rtakeWhile isSpace code
  have sizeEq := congrArg byteLength codeEq
  rw [byteLength_append, show byteLength ";".toList = 1 from rfl] at sizeEq
  refine ⟨before, ';', code.rtakeWhile isSpace, ?_, by omega, by decide⟩
  calc code = trimEnd code ++ code.rtakeWhile isSpace := whole.symm
    _ = before ++ ';' :: code.rtakeWhile isSpace := by
        rw [← codeEq, List.append_assoc]
        rfl

theorem succeeds (style : SemicolonStyle) : rule.Succeeds document (.semicolons style) := by
  have points : Issue.AllPointInto document (issues style document) := by
    intro issue member
    obtain ⟨placed, placedMember, found⟩ := List.mem_filterMap.mp member
    have holds : document.Holds placed.index placed.line :=
      Document.holds_of_mem_placedLines placedMember
    simp only [issueOfLine?] at found
    split at found
    · split at found
      · rw [← Option.some.inj found]
        apply RuleInfo.pointsInto_issue (by decide) holds.index_lt
        rw [holds.line_eq, Nat.add_zero]
        exact charColumn_le_length _ _
      · next ends =>
          rw [← Option.some.inj found]
          apply RuleInfo.pointsInto_issue (by decide) holds.index_lt
          rw [holds.line_eq]
          exact holds.column_lt (showsAt_of_endsIn ends)
      · cases found
    · cases found
  exact .ok points

end Semicolons

theorem TrailingComma.succeeds (options : RuleOptions) : rule.Succeeds document options := by
  have points : Issue.AllPointInto document (issues document) := by
    intro issue member
    obtain ⟨placed, placedMember, found⟩ := List.mem_filterMap.mp member
    have holds : document.Holds placed.index placed.line :=
      Document.holds_of_mem_placedLines placedMember
    simp only [issueOfLine?] at found
    split at found
    · rw [← Option.some.inj found]
      constructor
      case line_lt => exact holds.index_lt
      case character_le =>
        rw [RuleInfo.issue, holds.line_eq]
        exact charColumn_le_length _ _
      case span_le => exact fun notComma => absurd rfl notComma
      case comma_length => exact fun _ => rfl
    · cases found
  exact .ok points

/-! ## Bodies of functions -/

namespace FunctionEmptyLine

/-- The last opening brace of the code is shown at its position. -/
theorem showsAt_lastBrace {code : List Char} (present : '\x7b' ∈ code) :
    ShowsAt code (lastBrace code) := by
  obtain ⟨behind, ahead, reversedEq, absent⟩ :=
    List.eq_append_cons_of_mem (List.mem_reverse.mpr present)
  have passed : ∀ letter ∈ behind, (letter != '\x7b') = true := by
    intro letter member
    exact bne_iff_ne.mpr fun same => absent (same ▸ member)
  have position : lastBrace code = byteLength ahead.reverse := by
    rw [lastBrace, reversedEq, List.dropWhile_append_of_pos passed,
      List.dropWhile_cons_of_neg (by decide), List.drop_one, List.tail_cons, byteLength_reverse]
  have codeEq : code = ahead.reverse ++ '\x7b' :: behind.reverse := by
    rw [← List.reverse_reverse code, reversedEq, List.reverse_append, List.reverse_cons,
      List.append_assoc, List.singleton_append]
  exact ⟨ahead.reverse, '\x7b', behind.reverse, codeEq, position.symm, by decide⟩

theorem mem_code_of_endsIn {line : ScannedLine} (ends : endsIn "\x7b" line.trimmed = true) :
    '\x7b' ∈ line.code := by
  obtain ⟨before, trimmedEq⟩ := List.isSuffixOf_iff_suffix.mp ends
  obtain ⟨trailing, codeEq, _⟩ := exists_eq_append_trim line.code
  have inTrimmed : '\x7b' ∈ trim line.code := by
    rw [← ScannedLine.trimmed, ← trimmedEq]
    exact List.mem_append_right before List.mem_cons_self
  rw [codeEq]
  exact List.mem_append_left _ (List.mem_append_right _ inTrimmed)

/-- The line of the brace is one of the lines searched, and its code has a brace. -/
theorem mem_of_bodyBrace? {depth : Nat} {lines : List PlacedLine} {brace : PlacedLine}
    (found : bodyBrace? depth lines = some brace) :
    brace ∈ lines ∧ '\x7b' ∈ brace.line.code := by
  induction lines with
  | nil => cases found
  | cons placed rest inductionHypothesis =>
      have later : bodyBrace? depth rest = some brace →
          brace ∈ placed :: rest ∧ '\x7b' ∈ brace.line.code := fun foundLater =>
        (inductionHypothesis foundLater).imp_left (List.mem_cons_of_mem placed)
      simp only [bodyBrace?] at found
      split at found
      · exact later found
      · split at found
        · cases found
        · split at found
          · split at found
            · next ends =>
                cases found
                exact ⟨List.mem_cons_self, mem_code_of_endsIn ends⟩
            · cases found
          · exact later found

/-- An issue for a head stands behind a brace of the document. -/
theorem pointsInto_issueOfHead? {kind : HeadKind} {depth : Nat} {lines : List PlacedLine}
    {issue : Issue} (placed : ∀ line ∈ lines, document.Holds line.index line.line)
    (found : issueOfHead? kind depth lines = some issue) : issue.PointsInto document := by
  unfold issueOfHead? at found
  split at found
  · cases found
  · next brace braceFound =>
      obtain ⟨member, present⟩ := mem_of_bodyBrace? braceFound
      have holds := placed brace member
      split at found
      · cases found
      · rw [← Option.some.inj found]
        constructor
        case line_lt => exact holds.index_lt
        case character_le =>
          rw [RuleInfo.openIssue, holds.line_eq]
          exact holds.column_lt (showsAt_lastBrace present)
        case span_le => exact fun _ _ noLength => nomatch noLength
        case comma_length =>
          have notComma : info.id ≠ "trailingComma" := by decide
          exact fun isComma => absurd isComma notComma

theorem pointsInto_issuesOfLines {lines : List PlacedLine}
    (placed : ∀ line ∈ lines, document.Holds line.index line.line) :
    Issue.AllPointInto document (issuesOfLines lines) := by
  induction lines with
  | nil => exact nofun
  | cons first rest inductionHypothesis =>
      intro issue member
      simp only [issuesOfLines] at member
      rcases List.mem_append.mp member with here | later
      · rw [Option.mem_toList] at here
        split at here
        · obtain ⟨kind, _, found⟩ := Option.bind_eq_some_iff.mp here
          exact pointsInto_issueOfHead? document placed found
        · cases here
      · exact inductionHypothesis (List.forall_mem_cons.mp placed).2 issue later

theorem succeeds (options : RuleOptions) : rule.Succeeds document options :=
  .ok (pointsInto_issuesOfLines document fun _ => Document.holds_of_mem_placedLines)

end FunctionEmptyLine

end ScriptLint
