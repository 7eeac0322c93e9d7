import ScriptLint.Proofs.Outline.EntryPoint
import ScriptLint.Proofs.Source.Stack

/-!
# Line terminators of a document

Writing line feeds as carriage returns with line feeds leaves the lines of a document as they are. A
further line feed at the end puts an empty line below them, or two if there were none. In either case
the document is padded: there are empty lines below its lines, and the scanner learns nothing from
those.
-/

namespace ScriptLint

open Text

namespace ScannedLine

variable {line : ScannedLine}

theorem isCode_of_trimmed_eq_nil (bare : line.trimmed = []) : line.isCode = false := by
  rw [isCode, isComment, bare]
  cases line.isBlank with
  | true => rfl
  | false => rfl

theorem beginsCode_of_trimmed_eq_nil (bare : line.trimmed = []) : line.beginsCode = false := by
  rw [beginsCode, isCode_of_trimmed_eq_nil bare]
  rfl

end ScannedLine

/-- The scanned line has no characters. -/
structure ScannedLine.IsEmpty (line : ScannedLine) : Prop where
  text_eq : line.text = []
  code_eq : line.code = []

namespace ScannedLine.IsEmpty

variable {line : ScannedLine}

theorem isBlank (empty : line.IsEmpty) : line.isBlank = true := by
  rw [ScannedLine.isBlank, empty.text_eq]
  rfl

theorem trimmed (empty : line.IsEmpty) : line.trimmed = [] := by
  rw [ScannedLine.trimmed, empty.code_eq]
  rfl

theorem isCode (empty : line.IsEmpty) : line.isCode = false :=
  isCode_of_trimmed_eq_nil empty.trimmed

theorem beginsCode (empty : line.IsEmpty) : line.beginsCode = false :=
  beginsCode_of_trimmed_eq_nil empty.trimmed

end ScannedLine.IsEmpty

/-- The padded document is an entry point if the document is, it has the lines of the document and
empty lines below them, and joining its lines adds at most a line feed at the end. -/
structure Document.IsPaddedTo (document padded : Document) : Prop where
  entry_eq : Outline.endsInDefaultExport padded.text = Outline.endsInDefaultExport document.text
  lines_eq : ∃ count, padded.lines = document.lines ++ List.replicate count []
  joined_eq : padded.joined = document.joined ∨ padded.joined = document.joined ++ ['\n']

/-! ## Carriage returns -/

theorem dropReturn_cons {letter : Char} (other : letter ≠ '\r') (line : List Char) :
    dropReturn (letter :: line) = letter :: dropReturn line := by
  unfold dropReturn
  cases line with
  | nil =>
      rw [List.getLast?_singleton, if_neg (fun same => other (Option.some.inj same))]
      rfl
  | cons next rest =>
      rw [List.getLast?_cons_cons]
      split
      · rfl
      · rfl

/-- The carriage returns that were put in are those that are dropped at the ends of the lines. -/
theorem map_dropReturn_splitOn_withReturns {letters : List Char} (absent : '\r' ∉ letters) :
    (splitOn '\n' (withReturns letters)).map dropReturn =
      (splitOn '\n' letters).map dropReturn := by
  induction letters with
  | nil => rfl
  | cons letter rest inductionHypothesis =>
      rw [List.mem_cons, not_or] at absent
      have sameRest := inductionHypothesis absent.2
      by_cases feed : letter = '\n'
      · have onlyReturn : splitOn '\n' ('\r' :: '\n' :: withReturns rest) =
            ['\r'] :: splitOn '\n' (withReturns rest) :=
          splitOn_cons_of_ne (by decide) (splitOn_cons_self '\n' _)
        rw [feed, withReturns_cons_feed, onlyReturn, splitOn_cons_self, List.map_cons,
          List.map_cons, sameRest]
        rfl
      · -- the character begins the first piece of the rest, and a return is dropped at its end only
        obtain ⟨pieces, split⟩ := exists_splitOn_eq_cons '\n' rest
        obtain ⟨others, splitReturns⟩ := exists_splitOn_eq_cons '\n' (withReturns rest)
        rw [split, splitReturns, List.map_cons, List.map_cons] at sameRest
        obtain ⟨samePiece, samePieces⟩ := List.cons.inj sameRest
        rw [withReturns_cons_of_ne feed, splitOn_cons_of_ne feed split,
          splitOn_cons_of_ne feed splitReturns, List.map_cons, List.map_cons,
          dropReturn_cons (Ne.symm absent.1), dropReturn_cons (Ne.symm absent.1), samePiece,
          samePieces]

namespace Document

theorem lines_withReturns {text : List Char} (absent : '\r' ∉ text) :
    lines ⟨withReturns text⟩ = lines ⟨text⟩ := by
  have sameEmpty : (withReturns text).isEmpty = text.isEmpty := by
    rw [Bool.eq_iff_iff, List.isEmpty_iff, List.isEmpty_iff]
    exact withReturns_eq_nil_iff
  rw [lines, lines, sameEmpty, map_dropReturn_splitOn_withReturns absent]

theorem isPaddedTo_withReturns {text : List Char} (absent : '\r' ∉ text) :
    IsPaddedTo ⟨text⟩ ⟨withReturns text⟩ where
  entry_eq := Outline.endsInDefaultExport_withReturns absent
  lines_eq := ⟨0, by rw [lines_withReturns absent, List.replicate_zero, List.append_nil]⟩
  joined_eq := Or.inl (by rw [joined, joined, lines_withReturns absent])

/-! ## A line feed at the end -/

theorem lines_ne_nil {text : List Char} (nonempty : text ≠ []) : lines ⟨text⟩ ≠ [] := by
  rw [lines_eq_map nonempty, Ne, List.map_eq_nil_iff]
  exact splitOn_ne_nil '\n' text

theorem lines_append_feed {text : List Char} (nonempty : text ≠ []) :
    lines ⟨text ++ ['\n']⟩ = lines ⟨text⟩ ++ [[]] := by
  rw [lines_eq_map (List.concat_ne_nil _ _), lines_eq_map nonempty, splitOn_append_cons,
    List.map_append]
  rfl

theorem joinWith_append_nil {pieces : List (List Char)} (nonempty : pieces ≠ []) :
    joinWith '\n' (pieces ++ [[]]) = joinWith '\n' pieces ++ ['\n'] := by
  obtain ⟨first, rest, rfl⟩ := List.exists_cons_of_ne_nil nonempty
  rw [List.cons_append, joinWith_cons, joinWith_cons, List.flatMap_append, List.append_assoc]
  rfl

theorem isPaddedTo_append_feed (text : List Char) : IsPaddedTo ⟨text⟩ ⟨text ++ ['\n']⟩ where
  entry_eq := Outline.endsInDefaultExport_append_feed text
  lines_eq := by
    by_cases nonempty : text = []
    · exact ⟨2, by rw [nonempty]; rfl⟩
    · exact ⟨1, lines_append_feed nonempty⟩
  joined_eq := by
    right
    by_cases nonempty : text = []
    · rw [nonempty]
      rfl
    · rw [joined, joined, lines_append_feed nonempty]
      exact joinWith_append_nil (lines_ne_nil nonempty)

end Document

/-! ## Scanning -/

theorem Scanner.isEmpty_of_mem_scanNumbered {scanner : Scanner} {lines : List (Nat × List Char)}
    (blank : ∀ fed ∈ lines, fed.2 = []) {line : ScannedLine}
    (member : line ∈ scanner.scanNumbered lines) : line.IsEmpty := by
  have noText : line.text = [] := by
    have inTexts : line.text ∈ (scanner.scanNumbered lines).map (·.text) :=
      List.mem_map_of_mem member
    rw [Scanner.map_text_scanNumbered] at inTexts
    obtain ⟨fed, fedMember, textEq⟩ := List.mem_map.mp inTexts
    exact textEq.symm.trans (blank fed fedMember)
  refine ⟨noText, ?_⟩
  rw [Scanner.code_of_mem_scanNumbered member, noText]
  rfl

/-- The lines that pad a document are scanned as empty lines below its own. -/
theorem Document.IsPaddedTo.exists_scan {document padded : Document}
    (pads : document.IsPaddedTo padded) :
    ∃ extra, padded.scan = document.scan ++ extra ∧ ∀ line ∈ extra, line.IsEmpty := by
  obtain ⟨count, linesEq⟩ := pads.lines_eq
  refine ⟨_, Document.scan_append linesEq, fun line => Scanner.isEmpty_of_mem_scanNumbered ?_⟩
  intro fed member
  obtain ⟨entry, entryMember, rfl⟩ := List.mem_map.mp member
  exact List.eq_of_mem_replicate (List.fst_mem_of_mem_zipIdx entryMember)

end ScriptLint
