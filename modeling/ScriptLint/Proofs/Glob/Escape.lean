import ScriptLint.Glob.Match
import ScriptLint.Proofs.Glob.Reading

/-!
# Escaped texts

An escaped text is a pattern that matches the text and nothing else. The components of an escaped
path are the escaped components of the path.
-/

namespace ScriptLint.Glob

open Text

/-- Whether a character has a meaning in patterns. -/
def hasMeaning (letter : Char) : Bool :=
  letter == '?' || letter == '*' || letter == '[' || letter == ']'

/-- The token for a character of an escaped text. -/
def escapedToken (letter : Char) : Token :=
  if hasMeaning letter then .within [⟨letter, letter⟩] else .letter letter

/-- The pattern that matches one text only. -/
def escaped (letters : List Char) : Pattern := ⟨letters.map escapedToken, false⟩

variable {letter : Char} {letters name path : List Char}

/-! ## Escaped texts as patterns -/

theorem escape_cons_of_hasMeaning (meaning : hasMeaning letter = true) (letters : List Char) :
    escape (letter :: letters) = '[' :: letter :: ']' :: escape letters := by
  rw [hasMeaning] at meaning
  rw [escape, List.flatMap_cons, if_pos meaning]
  rfl

theorem escape_cons_of_plain (plain : hasMeaning letter = false) (letters : List Char) :
    escape (letter :: letters) = letter :: escape letters := by
  rw [hasMeaning] at plain
  rw [escape, List.flatMap_cons, if_neg (Bool.eq_false_iff.mp plain)]
  rfl

theorem readBracket?_of_hasMeaning (meaning : hasMeaning letter = true) (rest : List Char) :
    readBracket? (letter :: ']' :: rest) = some (.within [⟨letter, letter⟩], 2, rest) := by
  have plain : (letter :: ']' :: rest).head? ≠ some '!' := by
    rintro ⟨⟩
    cases meaning
  have closed : bracket? (letter :: ']' :: rest) = some ([letter], rest) :=
    bracket?_eq_some.mpr ⟨letter, [], rfl, List.not_mem_nil, rfl⟩
  rw [readBracket?_of_ne plain, closed]
  rfl

theorem reads_escape (before : Option Char) (tokens : List Token) (letters : List Char) :
    Reads before tokens (escape letters) (tokens.reverse ++ letters.map escapedToken) := by
  induction letters generalizing before tokens with
  | nil =>
      rw [List.map_nil, List.append_nil]
      exact .done
  | cons letter letters inductionHypothesis =>
      have further := fun before => inductionHypothesis before (escapedToken letter :: tokens)
      simp only [List.reverse_cons, List.append_assoc, List.singleton_append] at further
      cases meaning : hasMeaning letter with
      | true =>
          rw [escapedToken, if_pos meaning] at further
          rw [escape_cons_of_hasMeaning meaning, List.map_cons, escapedToken, if_pos meaning]
          exact .bracket (readBracket?_of_hasMeaning meaning _) (further _)
      | false =>
          have others : letter ≠ '?' ∧ letter ≠ '*' ∧ letter ≠ '[' := by
            simp only [hasMeaning, Bool.or_eq_false_iff, beq_eq_false_iff_ne] at meaning
            exact ⟨meaning.1.1.1, meaning.1.1.2, meaning.1.2⟩
          rw [escapedToken, meaning] at further
          rw [escape_cons_of_plain meaning, List.map_cons, escapedToken, meaning]
          exact .letter others.1 others.2.1 others.2.2 (further _)

theorem escapedToken_ne_anyComponents : escapedToken letter ≠ .anyComponents := by
  unfold escapedToken
  split
  · nofun
  · nofun

theorem ofText_escape (letters : List Char) :
    Pattern.ofText (escape letters) = .ok (escaped letters) := by
  have noComponents : (letters.map escapedToken).contains .anyComponents = false := by
    rw [List.contains_eq_any_beq, List.any_eq_false]
    intro token member
    obtain ⟨letter, -, rfl⟩ := List.mem_map.mp member
    simpa using escapedToken_ne_anyComponents.symm
  have read := (reads_escape none [] letters).ofText_eq
  rwa [List.reverse_nil, List.nil_append, noComponents] at read

theorem accepts_escapedToken {other : Char} :
    (escapedToken letter).accepts other = true ↔ other = letter := by
  unfold escapedToken
  split
  · simp only [Token.accepts, List.any_cons, List.any_nil, Bool.or_false, Range.holds,
      Bool.and_eq_true, decide_eq_true_eq]
    exact ⟨fun ⟨low, high⟩ => Char.le_antisymm high low, fun same => same ▸ ⟨Char.le_refl _,
      Char.le_refl _⟩⟩
  · rw [Token.accepts, beq_iff_eq, eq_comm]

theorem stop?_escapedToken : (escapedToken letter).stop? = none := by
  unfold escapedToken
  split
  · rfl
  · rfl

/-- An escaped text matches itself only. -/
theorem accepts_escaped : (escaped letters).accepts path = true ↔ path = letters := by
  rw [Pattern.accepts_eq, escaped]
  induction letters generalizing path with
  | nil => exact List.isEmpty_iff
  | cons letter letters inductionHypothesis =>
      simp only [List.map_cons, matchTokens, stop?_escapedToken]
      cases path with
      | nil => exact iff_of_false Bool.false_ne_true (List.cons_ne_nil _ _).symm
      | cons other rest =>
          rw [Bool.and_eq_true, accepts_escapedToken, inductionHypothesis, List.cons.injEq]

theorem eq_of_escapedToken_eq {other : Char} (same : escapedToken letter = .letter other) :
    other = letter := by
  unfold escapedToken at same
  split at same
  · cases same
  · exact (Token.letter.inj same).symm

/-- If an escaped text stands for one text only, then for itself. -/
theorem eq_of_literal?_escaped (literal : (escaped letters).literal? = some name) :
    name = letters := by
  have tokensEq : letters.map escapedToken = name.map .letter :=
    Pattern.tokens_eq_of_literal? literal
  clear literal
  induction letters generalizing name with
  | nil => exact List.map_eq_nil_iff.mp tokensEq.symm
  | cons letter letters inductionHypothesis =>
      cases name with
      | nil => cases tokensEq
      | cons other others =>
          rw [List.map_cons, List.map_cons, List.cons.injEq] at tokensEq
          rw [eq_of_escapedToken_eq tokensEq.1, inductionHypothesis tokensEq.2]

/-! ## Escaped paths -/

/-- The components of an escaped path are the escaped components of the path. -/
theorem splitOn_escape (letters : List Char) :
    splitOn '/' (escape letters) = (splitOn '/' letters).map escape := by
  induction letters with
  | nil => rfl
  | cons letter letters inductionHypothesis =>
      by_cases isSlash : letter = '/'
      · rw [isSlash, escape_cons_of_plain (by decide), splitOn_cons_self, splitOn_cons_self,
          inductionHypothesis]
        rfl
      · obtain ⟨pieces, split⟩ := exists_splitOn_eq_cons '/' letters
        rw [split, List.map_cons] at inductionHypothesis
        rw [splitOn_cons_of_ne isSlash split, List.map_cons]
        cases meaning : hasMeaning letter with
        | true =>
            have closed := splitOn_cons_of_ne (show ']' ≠ '/' by decide) inductionHypothesis
            rw [escape_cons_of_hasMeaning meaning, escape_cons_of_hasMeaning meaning,
              splitOn_cons_of_ne (by decide) (splitOn_cons_of_ne isSlash closed)]
        | false =>
            rw [escape_cons_of_plain meaning, escape_cons_of_plain meaning,
              splitOn_cons_of_ne isSlash inductionHypothesis]

end ScriptLint.Glob
