import ScriptLint.Proofs.Source.Neighbours
import ScriptLint.Proofs.Text.Words

/-!
# Whole identifiers

Characters of a line are a whole identifier if no character of an identifier stands directly in
front of them or behind them. What stands around a run of code is read off the code: a space in its
place is a space or a slash in the line, and neither belongs to an identifier. In ASCII a character
of an identifier is a word character or the dollar sign, so behind a word edge only a dollar sign
can go on.
-/

namespace ScriptLint

open Text

namespace Document

/-- The character in front of a column of a line. -/
def letterBefore? (document : Document) (index column : Nat) : Option Char :=
  ((document.line index).take column).getLast?

/-- The character at a column of a line. -/
def letterAt? (document : Document) (index column : Nat) : Option Char :=
  (document.line index)[column]?

/-- No character of an identifier stands on either side of so many characters of a line. -/
structure IsWholeAt (document : Document) (index character length : Nat) : Prop where
  begins : (document.letterBefore? index character).any isIdentifier = false
  ends : (document.letterAt? index (character + length)).any isIdentifier = false

/-- The document is written in ASCII. -/
def IsAscii (document : Document) : Prop := ∀ letter ∈ document.text, isAscii letter = true

end Document

/-! ## ASCII -/

theorem isIdentifier_eq_isName {letter : Char} (ascii : isAscii letter = true) :
    isIdentifier letter = isName letter := by
  rw [isIdentifier, isName, isAlphabetic, isNumeric, isWord, if_pos ascii, if_pos ascii,
    if_pos ascii, Char.isAlphanum]

/-- Where a word edge is, only a dollar sign goes on. -/
theorem any_isName_iff {letter? : Option Char} (noWord : letter?.any isWord = false) :
    letter?.any isName = false ↔ letter? ≠ some '$' := by
  cases letter? with
  | none => simp
  | some letter =>
      rw [Option.any_some] at noWord
      rw [Option.any_some, isName, noWord, Bool.false_or, beq_eq_false_iff_ne, Ne, Ne,
        Option.some.injEq]

theorem MeetsAs.eq_dollar_iff {written shown : Option Char} (meets : MeetsAs written shown) :
    written = some '$' ↔ shown = some '$' := by
  rcases meets with rfl | ⟨rfl, rfl⟩
  · rfl
  · decide

theorem Text.mem_of_mem_splitOn {separator letter : Char} {letters piece : List Char}
    (isPiece : piece ∈ splitOn separator letters) (member : letter ∈ piece) : letter ∈ letters := by
  obtain ⟨earlier, later, shape⟩ := List.append_of_mem isPiece
  have whole := joinWith_splitOn separator letters
  rw [shape, joinWith_append_cons] at whole
  rw [← whole]
  exact List.mem_append_left _ (List.mem_append_right _ member)

namespace Document

variable {document : Document} {index : Nat} {letter : Char}

theorem mem_text_of_mem_line (member : letter ∈ document.line index) : letter ∈ document.text := by
  rw [line, List.getD_eq_getElem?_getD] at member
  cases found : document.lines[index]? with
  | none =>
      rw [found] at member
      exact absurd member List.not_mem_nil
  | some line =>
      rw [found, Option.getD_some] at member
      have isLine := List.mem_of_getElem? found
      unfold lines at isLine
      split at isLine
      · exact absurd isLine List.not_mem_nil
      · obtain ⟨piece, isPiece, rfl⟩ := List.mem_map.mp isLine
        have inPiece : letter ∈ piece := by
          by_contra absent
          exact not_mem_dropReturn absent member
        exact mem_of_mem_splitOn isPiece inPiece

theorem IsAscii.any_isIdentifier_eq (ascii : document.IsAscii) {letter? : Option Char}
    (member : ∀ letter ∈ letter?, letter ∈ document.line index) :
    letter?.any isIdentifier = letter?.any isName := by
  cases letter? with
  | none => rfl
  | some letter =>
      rw [Option.any_some, Option.any_some]
      exact isIdentifier_eq_isName (ascii letter (mem_text_of_mem_line (member letter rfl)))

/-! ## Runs of code -/

/-- A run of code stands on a line, between what the code has in front of it and behind it. -/
structure Shows (document : Document) (index character : Nat) (run : List Char)
    (before behind : Option Char) : Prop where
  isPrefix : run <+: (document.line index).drop character
  meets_before : MeetsAs (document.letterBefore? index character) before
  meets_behind : MeetsAs (document.letterAt? index (character + run.length)) behind

theorem shows_of_code {line : ScannedLine} {before run after : List Char}
    (member : (line, index) ∈ document.scan.zipIdx) (nonempty : run ≠ [])
    (visible : ∀ letter ∈ run, letter ≠ ' ') (codeEq : line.code = before ++ (run ++ after)) :
    document.Shows index (line.column (byteLength before)) run before.getLast? after.head? := by
  have holds := holds_of_mem_zipIdx member
  have isLine : line ∈ document.scan := (List.mem_zipIdx member).2.2 ▸ List.getElem_mem _
  obtain ⟨initial, final, textEq, measured, meetsBefore, meetsBehind⟩ :=
    Scanner.exists_run_of_mem _ isLine nonempty visible codeEq
  have columnEq : line.column (byteLength before) = initial.length := by
    rw [ScannedLine.column, textEq, ← measured, charColumn_append]
  have lineEq : document.line index = initial ++ (run ++ final) := holds.line_eq.trans textEq
  rw [columnEq]
  refine ⟨?_, ?_, ?_⟩
  · rw [lineEq, List.drop_left]
    exact List.prefix_append run final
  · rwa [letterBefore?, lineEq, List.take_left]
  · rwa [letterAt?, lineEq, ← List.append_assoc, ← List.length_append,
      List.getElem?_append_right (Nat.le_refl _), Nat.sub_self, ← List.head?_eq_getElem?]

theorem Shows.isWholeAt_iff {character : Nat} {run : List Char} {before behind : Option Char}
    (shows : document.Shows index character run before behind) (ascii : document.IsAscii) :
    document.IsWholeAt index character run.length ↔
      before.any isName = false ∧ behind.any isName = false := by
  have front : (document.letterBefore? index character).any isIdentifier = before.any isName := by
    rw [← shows.meets_before.any_eq (by decide) (by decide)]
    apply ascii.any_isIdentifier_eq
    exact fun letter last => List.mem_of_mem_take (List.mem_of_getLast? last)
  have back : (document.letterAt? index (character + run.length)).any isIdentifier =
      behind.any isName := by
    rw [← shows.meets_behind.any_eq (by decide) (by decide)]
    apply ascii.any_isIdentifier_eq
    exact fun letter found => List.mem_of_getElem? found
  rw [← front, ← back]
  exact ⟨fun ⟨begins, ends⟩ => ⟨begins, ends⟩, fun ⟨begins, ends⟩ => ⟨begins, ends⟩⟩

/-- Between two word edges only dollar signs go on. -/
theorem Shows.isWholeAt_iff_dollar {character : Nat} {run : List Char} {before behind : Option Char}
    (shows : document.Shows index character run before behind) (ascii : document.IsAscii)
    (noWordBefore : before.any isWord = false) (noWordBehind : behind.any isWord = false) :
    document.IsWholeAt index character run.length ↔
      document.letterBefore? index character ≠ some '$' ∧
        document.letterAt? index (character + run.length) ≠ some '$' := by
  rw [shows.isWholeAt_iff ascii, any_isName_iff noWordBefore, any_isName_iff noWordBehind, Ne, Ne,
    ← shows.meets_before.eq_dollar_iff, ← shows.meets_behind.eq_dollar_iff]

end Document

end ScriptLint
