import ScriptLint.Text.Basic
import Mathlib.Data.List.TakeWhile

/-!
# Splitting at a character

The pieces of a text are separated by the occurrences of one character and do not contain it. A text
that is cut at one of the occurrences has the pieces of its two halves. Splitting and joining are
inverse to each other for pieces without the character.
-/

namespace ScriptLint.Text

variable {separator letter : Char} {letters rest : List Char}

theorem splitOn_cons_self (separator : Char) (rest : List Char) :
    splitOn separator (separator :: rest) = [] :: splitOn separator rest := by
  rw [splitOn, if_pos (beq_self_eq_true separator)]

theorem splitOn_cons_of_ne {piece : List Char} {pieces : List (List Char)}
    (different : letter ≠ separator) (split : splitOn separator rest = piece :: pieces) :
    splitOn separator (letter :: rest) = (letter :: piece) :: pieces := by
  rw [splitOn, if_neg (by simpa using different), split]

/-- The first piece ends at the first occurrence. -/
theorem exists_splitOn_eq_cons (separator : Char) (letters : List Char) :
    ∃ pieces, splitOn separator letters = letters.takeWhile (· != separator) :: pieces := by
  induction letters with
  | nil => exact ⟨[], rfl⟩
  | cons letter rest inductionHypothesis =>
      obtain ⟨pieces, split⟩ := inductionHypothesis
      by_cases same : letter = separator
      · subst same
        refine ⟨splitOn letter rest, ?_⟩
        rw [splitOn_cons_self, List.takeWhile_cons_of_neg (by simp)]
      · refine ⟨pieces, ?_⟩
        rw [splitOn_cons_of_ne same split, List.takeWhile_cons_of_pos (by simpa using same)]

/-- A text that is cut at an occurrence has the pieces of its two halves. -/
theorem splitOn_append_cons (separator : Char) (initial rest : List Char) :
    splitOn separator (initial ++ separator :: rest) =
      splitOn separator initial ++ splitOn separator rest := by
  induction initial with
  | nil => exact splitOn_cons_self separator rest
  | cons letter others inductionHypothesis =>
      by_cases same : letter = separator
      · rw [same, List.cons_append, splitOn_cons_self, splitOn_cons_self, inductionHypothesis,
          List.cons_append]
      · obtain ⟨pieces, split⟩ := exists_splitOn_eq_cons separator others
        rw [split, List.cons_append] at inductionHypothesis
        rw [List.cons_append, splitOn_cons_of_ne same inductionHypothesis,
          splitOn_cons_of_ne same split, List.cons_append]

theorem length_splitOn (separator : Char) (letters : List Char) :
    (splitOn separator letters).length = letters.count separator + 1 := by
  induction letters with
  | nil => rfl
  | cons letter rest inductionHypothesis =>
      by_cases same : letter = separator
      · rw [same, splitOn_cons_self, List.length_cons, inductionHypothesis, List.count_cons_self]
      · obtain ⟨pieces, split⟩ := exists_splitOn_eq_cons separator rest
        rw [split, List.length_cons] at inductionHypothesis
        rw [splitOn_cons_of_ne same split, List.length_cons, inductionHypothesis,
          List.count_cons_of_ne same]

theorem splitOn_eq_singleton (absent : separator ∉ letters) :
    splitOn separator letters = [letters] := by
  obtain ⟨pieces, split⟩ := exists_splitOn_eq_cons separator letters
  have lengths := length_splitOn separator letters
  rw [split, List.count_eq_zero.mpr absent, List.length_cons] at lengths
  have noMore : pieces = [] := List.length_eq_zero_iff.mp (by omega)
  have whole : letters.takeWhile (· != separator) = letters := by
    rw [List.takeWhile_eq_self_iff]
    intro letter member
    exact bne_iff_ne.mpr fun same => absent (same ▸ member)
  rw [split, noMore, whole]

theorem not_mem_of_mem_splitOn {piece : List Char} (member : piece ∈ splitOn separator letters) :
    separator ∉ piece := by
  induction letters generalizing piece with
  | nil =>
      rw [splitOn, List.mem_singleton] at member
      exact member ▸ List.not_mem_nil
  | cons letter rest inductionHypothesis =>
      by_cases same : letter = separator
      · rw [same, splitOn_cons_self] at member
        rcases List.mem_cons.mp member with here | later
        · exact here ▸ List.not_mem_nil
        · exact inductionHypothesis later
      · obtain ⟨pieces, split⟩ := exists_splitOn_eq_cons separator rest
        rw [splitOn_cons_of_ne same split] at member
        rw [split, List.forall_mem_cons] at inductionHypothesis
        rcases List.mem_cons.mp member with here | later
        · rw [here, List.mem_cons, not_or]
          exact ⟨fun equal => same equal.symm, inductionHypothesis.1⟩
        · exact inductionHypothesis.2 piece later

theorem joinWith_cons (separator : Char) (piece : List Char) (later : List (List Char)) :
    joinWith separator (piece :: later) = piece ++ later.flatMap (separator :: ·) := by
  induction later generalizing piece with
  | nil => exact (List.append_nil piece).symm
  | cons next others inductionHypothesis =>
      rw [joinWith, inductionHypothesis, List.flatMap_cons, List.cons_append]

/-- What is joined consists of the earlier pieces, each with the separator behind it, a piece, and
the later pieces, each with the separator in front of it. -/
theorem joinWith_append_cons (separator : Char) (earlier : List (List Char)) (piece : List Char)
    (later : List (List Char)) :
    joinWith separator (earlier ++ piece :: later) =
      earlier.flatMap (· ++ [separator]) ++ piece ++ later.flatMap (separator :: ·) := by
  induction earlier with
  | nil => exact joinWith_cons separator piece later
  | cons first others inductionHypothesis =>
      obtain ⟨next, rest, shape⟩ :=
        List.exists_cons_of_ne_nil (List.append_ne_nil_of_right_ne_nil others
          (List.cons_ne_nil piece later))
      rw [List.cons_append, shape, joinWith, ← shape, inductionHypothesis, List.flatMap_cons]
      simp only [List.append_assoc, List.cons_append, List.nil_append]

/-- Pieces without the separating character are those of the text they are joined to. -/
theorem splitOn_joinWith {pieces : List (List Char)} (nonempty : pieces ≠ [])
    (absent : ∀ piece ∈ pieces, separator ∉ piece) :
    splitOn separator (joinWith separator pieces) = pieces := by
  induction pieces with
  | nil => exact absurd rfl nonempty
  | cons piece others inductionHypothesis =>
      rw [List.forall_mem_cons] at absent
      cases others with
      | nil => exact splitOn_eq_singleton absent.1
      | cons next others =>
          rw [joinWith, splitOn_append_cons, splitOn_eq_singleton absent.1,
            inductionHypothesis (List.cons_ne_nil next others) absent.2, List.singleton_append]

end ScriptLint.Text
