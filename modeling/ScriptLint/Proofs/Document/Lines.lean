import ScriptLint.Rule.Basic
import ScriptLint.Proofs.Source.Coverage
import ScriptLint.Proofs.Document.Coordinates
import ScriptLint.Proofs.Text.Runs

/-!
# Scanned lines of a document

Scanning gives one line for each line of the document, with its text and with code that differs from
it in comments only. A run of code without a space therefore stands in the document at the byte
position at which it stands in the code.
-/

namespace ScriptLint

open Text

/-! ## Lines -/

theorem not_mem_dropReturn {line : List Char} {letter : Char} (absent : letter ∉ line) :
    letter ∉ dropReturn line := by
  unfold dropReturn
  split
  · exact fun member => absent (List.dropLast_subset line member)
  · exact absent

namespace Document

variable {document : Document}

theorem lines_eq_map (someText : document.text ≠ []) :
    document.lines = (splitOn '\n' document.text).map dropReturn :=
  if_neg (by rwa [List.isEmpty_iff])

theorem not_mem_of_mem_lines {line : List Char} (member : line ∈ document.lines) :
    '\n' ∉ line := by
  unfold lines at member
  split at member
  · exact absurd member List.not_mem_nil
  · obtain ⟨piece, isPiece, rfl⟩ := List.mem_map.mp member
    exact not_mem_dropReturn (not_mem_of_mem_splitOn isPiece)

/-- The lines of a document are the pieces of the joined text. -/
theorem splitOn_joined (nonempty : document.lines ≠ []) :
    splitOn '\n' document.joined = document.lines :=
  splitOn_joinWith nonempty fun _ member => not_mem_of_mem_lines member

theorem line_eq_of_getElem? {index : Nat} {line : List Char}
    (found : document.lines[index]? = some line) :
    index < document.lineCount ∧ document.line index = line := by
  obtain ⟨below, same⟩ := List.getElem?_eq_some_iff.mp found
  exact ⟨below, by rw [Document.line, List.getD_eq_getElem?_getD, found, Option.getD_some]⟩

theorem getElem?_lines {index : Nat} (below : index < document.lineCount) :
    document.lines[index]? = some (document.line index) := by
  rw [line, List.getD_eq_getElem _ _ below]
  exact List.getElem?_eq_getElem below

/-- A scanned line stands in the document under a number. -/
structure Holds (document : Document) (index : Nat) (line : ScannedLine) : Prop where
  index_lt : index < document.lineCount
  line_eq : document.line index = line.text
  code_eq : line.code = blankWhere line.isInComment 0 line.text

end Document

/-! ## Scanned lines -/

theorem Scanner.map_text_scanNumbered (scanner : Scanner) (lines : List (Nat × List Char)) :
    (scanner.scanNumbered lines).map (·.text) = lines.map (·.2) := by
  induction lines generalizing scanner with
  | nil => rfl
  | cons fed rest inductionHypothesis =>
      rw [List.map_cons, ← inductionHypothesis]
      rfl

theorem Scanner.code_of_mem_scanNumbered {scanner : Scanner} {lines : List (Nat × List Char)}
    {line : ScannedLine} (member : line ∈ scanner.scanNumbered lines) :
    line.code = blankWhere line.isInComment 0 line.text := by
  induction lines generalizing scanner with
  | nil => exact absurd member List.not_mem_nil
  | cons fed rest inductionHypothesis =>
      rcases List.mem_cons.mp member with here | later
      · rw [here]
        exact scanner.code_scanLine fed.1 fed.2
      · exact inductionHypothesis later

namespace Document

variable {document : Document} {index : Nat} {line : ScannedLine}

theorem map_text_scan (document : Document) : document.scan.map (·.text) = document.lines := by
  rw [scan, Scanner.map_text_scanNumbered, List.map_map]
  exact List.zipIdx_map_fst 0 document.lines

theorem holds_of_getElem?_scan (found : document.scan[index]? = some line) :
    document.Holds index line := by
  have foundText : document.lines[index]? = some line.text := by
    rw [← map_text_scan, List.getElem?_map, found, Option.map_some]
  obtain ⟨below, same⟩ := line_eq_of_getElem? foundText
  exact ⟨below, same, Scanner.code_of_mem_scanNumbered (List.mem_of_getElem? found)⟩

theorem holds_of_mem_zipIdx (member : (line, index) ∈ document.scan.zipIdx) :
    document.Holds index line :=
  holds_of_getElem?_scan (List.mem_zipIdx_iff_getElem?.mp member)

end Document

theorem PlacedLine.mem_zipIdx_of_mem_ofLines {placed : PlacedLine} {start : Nat}
    {lines : List ScannedLine} (member : placed ∈ ofLines start lines) :
    (placed.line, placed.index) ∈ lines.zipIdx start := by
  induction lines generalizing start with
  | nil => exact absurd member List.not_mem_nil
  | cons line following inductionHypothesis =>
      rw [List.zipIdx_cons]
      rcases List.mem_cons.mp member with here | later
      · rw [here]
        exact List.mem_cons_self
      · exact List.mem_cons_of_mem _ (inductionHypothesis later)

theorem Document.holds_of_mem_placedLines {document : Document} {placed : PlacedLine}
    (member : placed ∈ document.placedLines) : document.Holds placed.index placed.line :=
  holds_of_mem_zipIdx (PlacedLine.mem_zipIdx_of_mem_ofLines member)

/-! ## Code and text -/

/-- A character of the code begins at a position, and it is no space. -/
def ShowsAt (code : List Char) (position : Nat) : Prop :=
  ∃ before letter after, code = before ++ letter :: after ∧ byteLength before = position ∧
    letter ≠ ' '

theorem Text.Span.IsIn.showsAt {code : List Char} {span : Span} (inCode : span.IsIn code)
    (opens : ∃ letter rest, span.letters = letter :: rest ∧ letter ≠ ' ') :
    ShowsAt code span.start := by
  obtain ⟨before, after, codeEq, startEq, _⟩ := inCode
  obtain ⟨letter, rest, lettersEq, visible⟩ := opens
  refine ⟨before, letter, rest ++ after, ?_, startEq.symm, visible⟩
  rw [codeEq, lettersEq, List.append_assoc, List.cons_append]

namespace Document.Holds

variable {document : Document} {index : Nat} {line : ScannedLine}

/-- A span of the code without a space is a span of the text. -/
theorem isIn_text (holds : document.Holds index line) {span : Span} (inCode : span.IsIn line.code)
    (nonempty : span.letters ≠ []) (visible : ∀ letter ∈ span.letters, letter ≠ ' ') :
    span.IsIn line.text := by
  obtain ⟨before, after, codeEq, startEq, stopEq⟩ := inCode
  obtain ⟨initial, final, textEq, measured⟩ :=
    exists_run_of_blankWhere nonempty visible (holds.code_eq.symm.trans codeEq)
  exact ⟨initial, final, textEq, startEq.trans measured.symm, stopEq⟩

/-- Where the code shows a character, it stands in the text. -/
theorem exists_text_eq (holds : document.Holds index line) {position : Nat}
    (shows : ShowsAt line.code position) :
    ∃ before letter after, line.text = before ++ letter :: after ∧
      byteLength before = position := by
  obtain ⟨before, letter, after, codeEq, measured, visible⟩ := shows
  obtain ⟨initial, final, textEq, initialMeasured, _⟩ :=
    exists_letter_of_blankWhere visible (holds.code_eq.symm.trans codeEq)
  exact ⟨initial, letter, final, textEq, initialMeasured.trans measured⟩

theorem isBoundary_text (holds : document.Holds index line) {position : Nat}
    (shows : ShowsAt line.code position) : IsBoundary line.text position := by
  obtain ⟨before, letter, after, textEq, measured⟩ := holds.exists_text_eq shows
  exact ⟨before, letter :: after, textEq, measured⟩

/-- There is room for a character of the code on the line. -/
theorem column_lt (holds : document.Holds index line) {position : Nat}
    (shows : ShowsAt line.code position) : line.column position < line.text.length := by
  obtain ⟨before, letter, after, textEq, measured⟩ := holds.exists_text_eq shows
  have columnEq := charColumn_append before (letter :: after)
  rw [← textEq, measured] at columnEq
  have lengths := congrArg List.length textEq
  rw [List.length_append, List.length_cons] at lengths
  rw [ScannedLine.column, columnEq]
  omega

end Document.Holds

end ScriptLint
