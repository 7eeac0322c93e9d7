import ScriptLint.Text.Basic
import Mathlib.Data.List.Basic

/-!
# Byte positions

A text has the bytes of its UTF-8 encoding, and a byte position is a boundary if a character begins
there or the text ends there. Cutting at a position succeeds exactly at the boundaries, and the
character column of a boundary is the number of characters before it. Columns never decrease from a
boundary on, although a position inside a character counts as the end of the line.
-/

namespace ScriptLint.Text

/-- The bytes of a text in UTF-8. -/
def utf8 (letters : List Char) : List UInt8 := letters.flatMap String.utf8EncodeChar

@[simp]
theorem utf8_nil : utf8 [] = [] := rfl

@[simp]
theorem utf8_cons (letter : Char) (rest : List Char) :
    utf8 (letter :: rest) = String.utf8EncodeChar letter ++ utf8 rest := rfl

@[simp]
theorem utf8_append (first second : List Char) :
    utf8 (first ++ second) = utf8 first ++ utf8 second :=
  List.flatMap_append

theorem length_utf8 (letters : List Char) : (utf8 letters).length = byteLength letters := by
  induction letters with
  | nil => rfl
  | cons letter rest inductionHypothesis =>
      rw [utf8_cons, List.length_append, String.length_utf8EncodeChar, inductionHypothesis,
        byteLength_cons]

theorem byteLength_replicate (count : Nat) (letter : Char) :
    byteLength (List.replicate count letter) = count * letter.utf8Size := by
  induction count with
  | zero => simp
  | succ count inductionHypothesis =>
      rw [List.replicate_succ, byteLength_cons, inductionHypothesis, Nat.succ_mul, Nat.add_comm]

@[simp]
theorem byteLength_reverse (letters : List Char) :
    byteLength letters.reverse = byteLength letters := by
  induction letters with
  | nil => rfl
  | cons letter rest inductionHypothesis =>
      rw [List.reverse_cons, byteLength_append, inductionHypothesis, byteLength_cons,
        byteLength_cons, byteLength_nil]
      omega

theorem length_le_byteLength (letters : List Char) : letters.length ≤ byteLength letters := by
  induction letters with
  | nil => exact Nat.le_refl _
  | cons letter rest inductionHypothesis =>
      have sizePositive := letter.utf8Size_pos
      simp only [List.length_cons, byteLength_cons]
      omega

/-! ## Boundaries -/

/-- A position at which a character begins or the text ends. -/
def IsBoundary (letters : List Char) (position : Nat) : Prop :=
  ∃ before after, letters = before ++ after ∧ byteLength before = position

namespace IsBoundary

theorem zero (letters : List Char) : IsBoundary letters 0 :=
  ⟨[], letters, rfl, rfl⟩

theorem byteLength (letters : List Char) : IsBoundary letters (byteLength letters) :=
  ⟨letters, [], (List.append_nil letters).symm, rfl⟩

theorem le_byteLength {letters : List Char} {position : Nat}
    (boundary : IsBoundary letters position) : position ≤ Text.byteLength letters := by
  obtain ⟨before, after, equality, measured⟩ := boundary
  rw [equality, byteLength_append]
  omega

/-- A boundary stays one when the text goes on. -/
theorem append {letters : List Char} {position : Nat}
    (boundary : IsBoundary letters position) (more : List Char) :
    IsBoundary (letters ++ more) position := by
  obtain ⟨before, after, equality, measured⟩ := boundary
  exact ⟨before, after ++ more, by rw [equality, List.append_assoc], measured⟩

/-- A boundary between two characters is not inside the one that begins before it. -/
theorem le_or_add_le {before after : List Char} {letter : Char} {position : Nat}
    (boundary : IsBoundary (before ++ letter :: after) position) :
    position ≤ Text.byteLength before ∨
      Text.byteLength before + letter.utf8Size ≤ position := by
  obtain ⟨earlier, later, equality, measured⟩ := boundary
  rcases List.append_eq_append_iff.mp equality with
    ⟨between, earlierEq, _⟩ | ⟨between, beforeEq, _⟩
  · cases between with
    | nil =>
        left
        have sameLength : Text.byteLength earlier = Text.byteLength before := by
          rw [earlierEq, List.append_nil]
        omega
    | cons first rest =>
        right
        have sameLetter : letter = first := by
          simp_all
        rw [← measured, earlierEq, byteLength_append, byteLength_cons, sameLetter]
        omega
  · left
    rw [← measured, beforeEq, byteLength_append]
    omega

end IsBoundary

/-! ## Cuts and columns -/

/-- A cut succeeds with exactly the two halves around the position. -/
theorem splitAtByte?_eq_some_iff {letters before after : List Char} {position : Nat} :
    splitAtByte? letters position = some (before, after) ↔
      letters = before ++ after ∧ byteLength before = position := by
  induction letters generalizing position before with
  | nil =>
      cases position with
      | zero => cases before <;> simp [splitAtByte?, eq_comm]
      | succ position =>
          cases before <;> simp [splitAtByte?]
  | cons letter rest inductionHypothesis =>
      have sizePositive := letter.utf8Size_pos
      cases position with
      | zero =>
          cases before with
          | nil => simp [splitAtByte?, eq_comm]
          | cons first others =>
              have firstPositive := first.utf8Size_pos
              simp [splitAtByte?]
              omega
      | succ position =>
          cases before with
          | nil => simp [splitAtByte?]
          | cons first others =>
              simp only [splitAtByte?]
              split
              · next fits =>
                  simp only [Option.map_eq_some_iff, Prod.exists, Prod.mk.injEq, List.cons.injEq,
                    List.cons_append, byteLength_cons]
                  constructor
                  · rintro ⟨head, tail, cut, ⟨sameLetter, sameHead⟩, sameTail⟩
                    subst sameLetter sameHead sameTail
                    obtain ⟨equality, measured⟩ := inductionHypothesis.mp cut
                    exact ⟨⟨rfl, equality⟩, by omega⟩
                  · rintro ⟨⟨sameLetter, equality⟩, measured⟩
                    subst sameLetter
                    exact ⟨others, after, inductionHypothesis.mpr ⟨equality, by omega⟩,
                      ⟨rfl, rfl⟩, rfl⟩
              · next tooLong =>
                  constructor
                  · intro impossible
                    cases impossible
                  · rintro ⟨equality, measured⟩
                    rw [List.cons_append, List.cons.injEq] at equality
                    rw [byteLength_cons, ← equality.1] at measured
                    omega

theorem isBoundary_iff_splitAtByte? {letters : List Char} {position : Nat} :
    IsBoundary letters position ↔ (splitAtByte? letters position).isSome := by
  constructor
  · rintro ⟨before, after, cut⟩
    rw [splitAtByte?_eq_some_iff.mpr cut]
    rfl
  · intro succeeds
    obtain ⟨⟨before, after⟩, cut⟩ := Option.isSome_iff_exists.mp succeeds
    exact ⟨before, after, splitAtByte?_eq_some_iff.mp cut⟩

/-- The column of a boundary is the number of characters before it. -/
theorem charColumn_append (before after : List Char) :
    charColumn (before ++ after) (byteLength before) = before.length := by
  rw [charColumn, splitAtByte?_eq_some_iff.mpr ⟨rfl, rfl⟩]

theorem charColumn_le_length (line : List Char) (position : Nat) :
    charColumn line position ≤ line.length := by
  unfold charColumn
  split
  · next before after cut =>
      rw [(splitAtByte?_eq_some_iff.mp cut).1, List.length_append]
      omega
  · exact Nat.le_refl _

/-- From a boundary on columns do not decrease. -/
theorem charColumn_le_charColumn {line : List Char} {start stop : Nat}
    (boundary : IsBoundary line start) (ordered : start ≤ stop) :
    charColumn line start ≤ charColumn line stop := by
  obtain ⟨before, after, lineEq, measured⟩ := boundary
  by_cases stopBoundary : IsBoundary line stop
  · obtain ⟨initial, final, equality, stopMeasured⟩ := stopBoundary
    have startColumn : charColumn line start = before.length := by
      rw [lineEq, ← measured, charColumn_append]
    have stopColumn : charColumn line stop = initial.length := by
      rw [equality, ← stopMeasured, charColumn_append]
    rw [startColumn, stopColumn]
    rcases List.append_eq_append_iff.mp (lineEq.symm.trans equality) with
      ⟨between, initialEq, _⟩ | ⟨between, beforeEq, _⟩
    · rw [initialEq, List.length_append]
      omega
    · -- the later cut is the shorter one, so nothing lies between the two
      have betweenEmpty : Text.byteLength between = 0 := by
        have split := congrArg Text.byteLength beforeEq
        rw [byteLength_append] at split
        omega
      have shortest := length_le_byteLength between
      rw [beforeEq, List.length_append]
      omega
  · rw [isBoundary_iff_splitAtByte?, Bool.not_eq_true, Option.isSome_eq_false_iff,
      Option.isNone_iff_eq_none] at stopBoundary
    calc charColumn line start ≤ line.length := charColumn_le_length line start
      _ = charColumn line stop := by rw [charColumn, stopBoundary]

end ScriptLint.Text
