import ScriptLint.Proofs.Document.CommentBelow
import ScriptLint.Proofs.Rule.Padding

/-!
# Names above a comment

Both rules about names report on an outline, of which a comment below the document leaves everything
as it is, but for one bit: whether the document is an entry point is read off its text, and comments
are text. So a comment at the end can switch off the one rule and switch on the other, in either
direction, and it does nothing else.
-/

namespace ScriptLint

open Outline

variable {document : Document} {text : List Char}

/-- If one rule is on where the other is off, turning the switch makes no difference exactly if
neither has anything to report. -/
theorem switched_eq_iff {α : Type} (first second : Bool) (names others : List α) :
    (if first then [] else names) = (if second then [] else names) ∧
        (if first then others else []) = (if second then others else []) ↔
      first = second ∨ names = [] ∧ others = [] := by
  cases first with
  | true =>
      cases second with
      | true => simp
      | false => simp [eq_comm]
  | false =>
      cases second with
      | true => simp [eq_comm]
      | false => simp

section Scanned

variable (noFeed : '\n' ∉ text)
  (inCode : (({} : Scanner).behind document.numbered).mode = .code)

include noFeed inCode

theorem Outline.ofDocument_aboveComment :
    ofDocument (document.aboveComment text) =
      { ofDocument document with isEntryPoint := endsInDefaultExport text } := by
  obtain ⟨extra, scanEq, bare⟩ := Document.scan_aboveComment noFeed inCode
  rw [ofDocument_append scanEq bare, Document.endsInDefaultExport_aboveComment]

theorem NamingConvention.issues_aboveComment :
    issues (document.aboveComment text) =
      if endsInDefaultExport text then []
      else ((ofDocument document).declarations.filter
        (isReported (ofDocument document))).map issueOf := by
  rw [issues, ofDocument_aboveComment noFeed inCode]
  rfl

theorem UeNamingConvention.issues_aboveComment :
    issues (document.aboveComment text) =
      if endsInDefaultExport text then
        ((ofDocument document).declarations.filter (isReported document.scan)).map issueOf
      else [] := by
  obtain ⟨extra, scanEq, bare⟩ := Document.scan_aboveComment noFeed inCode
  have sameReport : isReported (document.aboveComment text).scan = isReported document.scan := by
    funext declaration
    rw [isReported, isReported, scanEq, isMarked_append bare]
  rw [issues, ofDocument_aboveComment noFeed inCode, sameReport]

end Scanned

/-- Below a document whose scan ends in the code, a comment changes nothing for the two rules about
names exactly if its text is the text of an entry point as the document is one, or if neither rule
has a name to report. -/
theorem check_aboveComment_iff (noFeed : '\n' ∉ text)
    (inCode : (({} : Scanner).behind document.numbered).mode = .code) (options : RuleOptions) :
    (NamingConvention.rule.check (document.aboveComment text) options =
          NamingConvention.rule.check document options ∧
        UeNamingConvention.rule.check (document.aboveComment text) options =
          UeNamingConvention.rule.check document options) ↔
      endsInDefaultExport text = endsInDefaultExport document.text ∨
        ∀ declaration ∈ (ofDocument document).declarations,
          NamingConvention.isReported (ofDocument document) declaration = false ∧
            UeNamingConvention.isReported document.scan declaration = false := by
  have nothing (reports : Declaration → Bool) (issueOf : Declaration → Issue) :
      ((ofDocument document).declarations.filter reports).map issueOf = [] ↔
        ∀ declaration ∈ (ofDocument document).declarations, reports declaration = false := by
    simp only [List.map_eq_nil_iff, List.filter_eq_nil_iff, Bool.not_eq_true]
  have noNames := nothing (NamingConvention.isReported (ofDocument document))
    NamingConvention.issueOf
  have noOthers := nothing (UeNamingConvention.isReported document.scan) UeNamingConvention.issueOf
  simp only [NamingConvention.rule, UeNamingConvention.rule, Except.ok.injEq, forall_and,
    ← noNames, ← noOthers]
  rw [NamingConvention.issues_aboveComment noFeed inCode,
    UeNamingConvention.issues_aboveComment noFeed inCode]
  exact switched_eq_iff (endsInDefaultExport text) (endsInDefaultExport document.text) _ _

/-- The end of a file that is no entry point can be marked. -/
theorem check_aboveComment_iff_end :
    let document := Document.ofString "const Main = 1;\nlet other = 2;"
    '\n' ∉ "end".toList ∧ (({} : Scanner).behind document.numbered).mode = .code ∧
      NamingConvention.rule.check (document.aboveComment "end".toList) .enabled =
        NamingConvention.rule.check document .enabled := by
  intro document
  have noFeed : '\n' ∉ "end".toList := by decide
  have inCode : (({} : Scanner).behind document.numbered).mode = .code := by decide +kernel
  have same : endsInDefaultExport "end".toList = endsInDefaultExport document.text := by
    decide +kernel
  exact ⟨noFeed, inCode, ((check_aboveComment_iff noFeed inCode .enabled).mpr (Or.inl same)).1⟩

/-- An export in a comment makes an entry point, and a comment behind an export unmakes one. -/
theorem check_aboveComment_switches :
    let plain := Document.ofString "const main = 1;"
    let entry := Document.ofString "const Main = 1;\nexport default Main;"
    (({} : Scanner).behind plain.numbered).mode = .code ∧
      UeNamingConvention.rule.check plain .enabled = .ok [] ∧
      UeNamingConvention.rule.check (plain.aboveComment "export default main".toList) .enabled =
        .ok [UeNamingConvention.info.issue 0 6 4
          "Variable name 'main' should start with an uppercase letter in framework scripts"] ∧
      (({} : Scanner).behind entry.numbered).mode = .code ∧
      NamingConvention.rule.check entry .enabled = .ok [] ∧
      NamingConvention.rule.check (entry.aboveComment "end".toList) .enabled =
        .ok [NamingConvention.info.issue 0 6 4
          "Variable name 'Main' should start with a lowercase letter"] := by
  intro plain entry
  refine ⟨?_, ?_, ?_, ?_, ?_, ?_⟩
  all_goals decide +kernel

end ScriptLint
