import ScriptLint.Rule.NoAny
import ScriptLint.Rule.NoConsole
import ScriptLint.Rule.NoVar
import ScriptLint.Rule.Quotes
import ScriptLint.Proofs.Rule.Basic

/-!
# Rules that search the code of a line

What these rules report begins with a letter, a quote or a mark of the code. The patterns do not
begin with white space, and of an annotation only the type is reported.
-/

namespace ScriptLint

open Text Text.Pattern

namespace Text.Pattern.IsMatch

variable {pattern : Pattern} {code : List Char} {found : Match}

theorem whole_showsAt (isMatch : IsMatch pattern code found)
    (opens : pattern.OpensWith (· ≠ ' ')) : ShowsAt code found.whole.start :=
  isMatch.whole_isIn.showsAt (isMatch.whole_opens opens)

theorem group_showsAt (isMatch : IsMatch pattern code found) {number : Nat} {span : Span}
    (recorded : found.group? number = some span)
    (opens : ∀ body ∈ pattern.bodies number, body.OpensWith (· ≠ ' ')) :
    ShowsAt code span.start :=
  (isMatch.group_isIn recorded).showsAt (isMatch.group_opens recorded opens)

end Text.Pattern.IsMatch

variable (document : Document)

theorem NoConsole.succeeds (options : RuleOptions) : rule.Succeeds document options := by
  have opens : consoleCall.OpensWith (· ≠ ' ') :=
    opensWith_inOrder_condition_cons trivial (opensWith_literal rfl (by decide))
  apply RuleInfo.yields_reportMatches (by decide)
  intro code found finding isMatch reported
  obtain ⟨span, _, rfl⟩ := Option.map_eq_some_iff.mp reported
  exact isMatch.whole_showsAt opens

theorem NoVar.succeeds (options : RuleOptions) : rule.Succeeds document options := by
  have opens : keyword.OpensWith (· ≠ ' ') :=
    opensWith_inOrder_condition_cons trivial (opensWith_literal rfl (by decide))
  apply RuleInfo.yields_reportMatches (by decide)
  intro code found finding isMatch reported
  rw [← Option.some.inj reported]
  exact isMatch.whole_showsAt opens

theorem NoAny.succeeds (options : RuleOptions) : rule.Succeeds document options := by
  have opens : ∀ body ∈ typeAnnotated.bodies 1, body.OpensWith (· ≠ ' ') := by
    intro body member
    have isAny : body = literal "any" := by
      simpa [typeAnnotated, spaces, bodies] using member
    rw [isAny]
    exact opensWith_literal rfl (by decide)
  apply RuleInfo.yields_reportMatches (by decide)
  intro code found finding isMatch reported
  obtain ⟨span, recorded, rfl⟩ := Option.map_eq_some_iff.mp reported
  exact isMatch.group_showsAt recorded opens

namespace Quotes

theorem opensWith_literalIn {quote : Char} (visible : quote ≠ ' ') :
    (literalIn quote).OpensWith (· ≠ ' ') := by
  apply opensWith_inOrder_cons
  intro letter same
  exact beq_iff_eq.mp same ▸ visible

theorem succeeds (style : QuoteStyle) : rule.Succeeds document (.quotes style) := by
  have opens : stringLiteral.OpensWith (· ≠ ' ') :=
    ⟨opensWith_literalIn (by decide), opensWith_literalIn (by decide)⟩
  have reports : Yields (info.reportMatches stringLiteral (report style) document)
      (Issue.AllPointInto document) := by
    apply RuleInfo.yields_reportMatches (by decide)
    intro code found finding isMatch reported
    unfold report at reported
    split at reported
    · rw [← Option.some.inj reported]
      exact isMatch.whole_showsAt opens
    · cases reported
  exact reports

end Quotes

end ScriptLint
