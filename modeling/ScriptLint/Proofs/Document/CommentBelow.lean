import ScriptLint.Proofs.Document.CommentAbove
import ScriptLint.Proofs.Outline.EntryPoint
import ScriptLint.Proofs.Source.Stack

/-!
# A comment below a document

A document is put above a line comment. If its scan ends in the code, the comment is scanned as one,
so all that is added are lines without code. The text as a whole, however, now ends with the text of
the comment, and that alone decides whether it is an entry point.
-/

namespace ScriptLint

open Text

/-- The line has nothing on it or is a line comment. -/
def IsCommentOrEmpty (text : List Char) : Prop := text = [] ∨ "//".toList <+: text

namespace Scanner

variable {scanner : Scanner} (inCode : scanner.mode = .code)

include inCode

/-- A comment shows no code and leaves the scanner in the code. -/
theorem scanLine_commentOrEmpty (index : Nat) {text : List Char} (comment : IsCommentOrEmpty text) :
    (scanner.scanLine index text).1.trimmed = [] ∧
      (scanner.scanLine index text).2.mode = .code := by
  have begins : scanner.begin.IsInCode := Or.inl (congrArg Mode.enter inCode)
  obtain ⟨leaves, _, count, reversedEq⟩ := begins.readAll_comment comment
  refine ⟨?_, leaves⟩
  have codeEq : (scanner.scanLine index text).1.code = List.replicate count ' ' := by
    have spaces : (scanner.progressOver index text).reversed = List.replicate count ' ' ++ [] :=
      reversedEq
    rw [List.append_nil] at spaces
    exact (congrArg List.reverse spaces).trans List.reverse_replicate
  rw [ScannedLine.trimmed, codeEq, trim_eq_nil_iff]
  intro letter member
  rw [List.eq_of_mem_replicate member]
  rfl

theorem trimmed_of_mem_scanNumbered {lines : List (Nat × List Char)}
    (comments : ∀ fed ∈ lines, IsCommentOrEmpty fed.2) {line : ScannedLine}
    (member : line ∈ scanner.scanNumbered lines) : line.trimmed = [] := by
  induction lines generalizing scanner with
  | nil => exact absurd member List.not_mem_nil
  | cons fed rest inductionHypothesis =>
      rw [List.forall_mem_cons] at comments
      obtain ⟨bare, staysInCode⟩ := scanLine_commentOrEmpty inCode fed.1 comments.1
      rcases List.mem_cons.mp member with here | below
      · rw [here]
        exact bare
      · exact inductionHypothesis staysInCode comments.2 below

end Scanner

namespace Document

variable {document : Document} {text : List Char}

/-- The document above a comment with the text. -/
def aboveComment (text : List Char) (document : Document) : Document :=
  ⟨document.text ++ '\n' :: ("// ".toList ++ text)⟩

/-- A document without text has no line, but above a comment it has an empty one. -/
theorem lines_aboveComment (noFeed : '\n' ∉ text) (document : Document) :
    ∃ extra, (document.aboveComment text).lines = document.lines ++ extra ∧
      ∀ line ∈ extra, IsCommentOrEmpty line := by
  have isComment : IsCommentOrEmpty (commentLine text) := by
    rw [commentLine_eq]
    exact Or.inr ⟨dropReturn (' ' :: text), rfl⟩
  have linesEq : (document.aboveComment text).lines =
      (splitOn '\n' document.text).map dropReturn ++ [commentLine text] := by
    have nonempty : (document.aboveComment text).text ≠ [] := by
      simp [aboveComment]
    rw [lines_eq_map nonempty, aboveComment, splitOn_append_cons,
      splitOn_eq_singleton (not_mem_opening noFeed), List.map_append]
    rfl
  by_cases empty : document.text = []
  · refine ⟨[[], commentLine text], ?_, ?_⟩
    · rw [linesEq, lines, empty]
      rfl
    · exact List.forall_mem_cons.mpr ⟨Or.inl rfl, List.forall_mem_singleton.mpr isComment⟩
  · refine ⟨[commentLine text], ?_, List.forall_mem_singleton.mpr isComment⟩
    rw [linesEq, lines_eq_map empty]

/-- If a scan ends in the code, a comment below it adds lines without code. -/
theorem scan_aboveComment (noFeed : '\n' ∉ text)
    (inCode : (({} : Scanner).behind document.numbered).mode = .code) :
    ∃ extra, (document.aboveComment text).scan = document.scan ++ extra ∧
      ∀ line ∈ extra, line.trimmed = [] := by
  obtain ⟨extra, linesEq, comments⟩ := lines_aboveComment noFeed document
  refine ⟨_, scan_append linesEq, fun line => Scanner.trimmed_of_mem_scanNumbered inCode ?_⟩
  intro fed member
  obtain ⟨entry, entryMember, rfl⟩ := List.mem_map.mp member
  exact comments entry.1 (List.fst_mem_of_mem_zipIdx entryMember)

/-- Whether the text above a comment is an entry point depends on the comment alone. -/
theorem endsInDefaultExport_aboveComment (text : List Char) (document : Document) :
    Outline.endsInDefaultExport (document.aboveComment text).text =
      Outline.endsInDefaultExport text := by
  have textEq : (document.aboveComment text).text =
      (document.text ++ ['\n', '/']) ++ '/' :: (' ' :: text) := by
    rw [aboveComment, List.append_assoc]
    rfl
  rw [textEq, Outline.endsInDefaultExport_append_cons _ _ (by decide) (by decide) (by decide),
    Outline.endsInDefaultExport_cons (by decide)]

end Document

end ScriptLint
