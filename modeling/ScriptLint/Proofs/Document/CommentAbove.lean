import ScriptLint.Proofs.Source.Lower
import ScriptLint.Proofs.Document.Lines
import ScriptLint.Proofs.Document.Coordinates

/-!
# A comment above a document

A document is put below a line comment. Its lines, their scans and the joined lines are those of the
document behind a first line. A document without text has no line, but below a comment it has an
empty one.
-/

namespace ScriptLint

open Text

/-- The line that a comment with the text is, without a carriage return at its end. -/
def commentLine (text : List Char) : List Char := dropReturn ("// ".toList ++ text)

/-- The comment line and the line feed behind it. -/
def commentRow (text : List Char) : List Char := commentLine text ++ ['\n']

namespace Document

/-- The document below a comment with the text. -/
def belowComment (text : List Char) (document : Document) : Document :=
  ⟨"// ".toList ++ text ++ '\n' :: document.text⟩

end Document

theorem dropReturn_cons_cons (first second : Char) (rest : List Char) :
    dropReturn (first :: second :: rest) = first :: dropReturn (second :: rest) := by
  rw [dropReturn, dropReturn, List.getLast?_cons_cons, List.dropLast_cons_cons]
  split
  · rfl
  · rfl

theorem commentLine_eq (text : List Char) :
    commentLine text = '/' :: '/' :: dropReturn (' ' :: text) := by
  change dropReturn ('/' :: '/' :: ' ' :: text) = _
  rw [dropReturn_cons_cons, dropReturn_cons_cons]

theorem byteLength_commentRow (text : List Char) :
    byteLength (commentRow text) = byteLength (commentLine text) + 1 :=
  byteLength_append _ _

variable {text : List Char}

theorem not_mem_opening (noFeed : '\n' ∉ text) : '\n' ∉ "// ".toList ++ text := by
  rw [List.mem_append, not_or]
  exact ⟨by decide, noFeed⟩

theorem not_mem_commentLine (noFeed : '\n' ∉ text) : '\n' ∉ commentLine text :=
  not_mem_dropReturn (not_mem_opening noFeed)

namespace Document

variable {document : Document}

theorem lines_belowComment (noFeed : '\n' ∉ text) (document : Document) :
    (document.belowComment text).lines =
      commentLine text :: (splitOn '\n' document.text).map dropReturn := by
  have nonempty : (document.belowComment text).text.isEmpty = false := rfl
  rw [lines, nonempty, if_neg Bool.false_ne_true, belowComment, splitOn_append_cons,
    splitOn_eq_singleton (not_mem_opening noFeed)]
  rfl

theorem joined_belowComment (noFeed : '\n' ∉ text) (document : Document) :
    (document.belowComment text).joined = commentRow text ++ document.joined := by
  rw [joined, lines_belowComment noFeed, joined, lines, commentRow]
  by_cases empty : document.text = []
  · rw [empty]
    exact (List.append_nil _).symm
  · rw [if_neg (by rwa [List.isEmpty_iff])]
    obtain ⟨pieces, split⟩ := exists_splitOn_eq_cons '\n' document.text
    rw [split, List.append_assoc]
    rfl

theorem scan_belowComment (noFeed : '\n' ∉ text) (document : Document) :
    ∃ comment others, (document.belowComment text).scan = comment :: others ∧
      comment.regions = [⟨.comment, 0, byteLength (commentLine text)⟩] ∧
      (document.text ≠ [] → others = document.scan.map ScannedLine.lower) := by
  obtain ⟨comment, scannedComment, regionsEq⟩ := Scanner.scanLine_comment (dropReturn (' ' :: text))
  rw [← commentLine_eq] at scannedComment regionsEq
  have scanned : (document.belowComment text).scan = comment :: ({} : Scanner).scanNumbered
      ((((splitOn '\n' document.text).map dropReturn).zipIdx 1).map
        fun entry => (entry.2, entry.1)) := by
    rw [scan, lines_belowComment noFeed, List.zipIdx_cons, List.map_cons, Scanner.scanNumbered,
      scannedComment]
  refine ⟨comment, _, scanned, regionsEq, fun nonempty => ?_⟩
  rw [← lines_eq_map nonempty]
  exact Scanner.scanNumbered_lower {} document.lines 0

/-! ## Coordinates -/

theorem lineColumn_belowComment (noFeed : '\n' ∉ text) (document : Document) (position : Nat) :
    lineColumn (lineStarts (document.belowComment text).joined)
        (position + byteLength (commentRow text)) =
      ((lineColumn (lineStarts document.joined) position).1 + 1,
        (lineColumn (lineStarts document.joined) position).2) := by
  rw [joined_belowComment noFeed, commentRow, List.append_assoc, ← commentRow,
    byteLength_commentRow]
  exact lineColumn_behind_line (not_mem_commentLine noFeed) document.joined position

end Document

end ScriptLint
