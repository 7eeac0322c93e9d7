import ScriptLint.Glob.Pattern
import ScriptLint.Proofs.Text.Split
import Mathlib.Data.List.TakeWhile

/-!
# Reading patterns

`Reads` says part by part how a text is read as a pattern, without counting steps or characters.
What was read in front of a text does not decide whether it can be read, except that a `**` begins
only where a component does. So a text is a pattern if all of its components are. Only characters of
the text become tokens that stand for themselves.
-/

namespace ScriptLint.Glob

open Text

/-- The text is a pattern. -/
def IsPattern (letters : List Char) : Prop := (Pattern.ofText letters).isOk = true

instance (letters : List Char) : Decidable (IsPattern letters) :=
  inferInstanceAs (Decidable (_ = _))

/-- Every component of the text is a pattern. -/
def IsWalkable (letters : List Char) : Prop := ∀ piece ∈ splitOn '/' letters, IsPattern piece

instance (letters : List Char) : Decidable (IsWalkable letters) :=
  inferInstanceAs (Decidable (∀ piece ∈ _, _))

variable {letters rest inside behind : List Char} {token : Token} {size : Nat}

theorem isPattern_iff :
    IsPattern letters ↔ ∃ pattern, Pattern.ofText letters = .ok pattern := by
  rw [IsPattern]
  cases Pattern.ofText letters <;> simp [Except.isOk, Except.toBool]

/-! ## Brackets -/

theorem drop_length_takeWhile (test : Char → Bool) (letters : List Char) :
    letters.drop (letters.takeWhile test).length = letters.dropWhile test :=
  calc letters.drop (letters.takeWhile test).length
    _ = (letters.takeWhile test ++ letters.dropWhile test).drop
          (letters.takeWhile test).length := by rw [List.takeWhile_append_dropWhile]
    _ = letters.dropWhile test := List.drop_left

/-- A bracket ends at the first closing character behind its first character. -/
theorem bracket?_eq_some : bracket? letters = some (inside, behind) ↔
    ∃ first run, inside = first :: run ∧ ']' ∉ run ∧ letters = inside ++ ']' :: behind := by
  cases letters with
  | nil =>
      constructor
      · nofun
      · rintro ⟨first, run, rfl, -, shape⟩
        cases shape
  | cons first others =>
      rw [bracket?, drop_length_takeWhile]
      constructor
      · intro found
        have whole := @List.takeWhile_append_dropWhile _ (· != ']') others
        have noClose : ']' ∉ others.takeWhile (· != ']') := fun member =>
          absurd (List.mem_takeWhile_imp member) (by decide)
        cases closing : others.dropWhile (· != ']') with
        | nil =>
            rw [closing] at found
            cases found
        | cons close later =>
            have stops := List.head?_dropWhile_not (· != ']') others
            rw [closing, List.head?_cons] at stops
            obtain rfl : close = ']' := by simpa using stops
            rw [closing] at found whole
            cases found
            exact ⟨first, _, rfl, noClose, by rw [List.cons_append, whole]⟩
      · rintro ⟨_, run, rfl, noClose, shape⟩
        rw [List.cons_append] at shape
        obtain ⟨rfl, rfl⟩ := List.cons.inj shape
        have passes : ∀ letter ∈ run, (letter != ']') = true := fun letter member =>
          bne_iff_ne.mpr fun same => noClose (same ▸ member)
        rw [List.takeWhile_append_of_pos passes, List.dropWhile_append_of_pos passes]
        simp

/-- What stands behind a bracket does not change it. -/
theorem bracket?_append (found : bracket? letters = some (inside, behind)) (rest : List Char) :
    bracket? (letters ++ rest) = some (inside, behind ++ rest) := by
  obtain ⟨first, run, shape, noClose, rfl⟩ := bracket?_eq_some.mp found
  exact bracket?_eq_some.mpr ⟨first, run, shape, noClose, by simp⟩

theorem readBracket?_not (letters : List Char) : readBracket? ('!' :: letters) =
    (bracket? letters).map fun (inside, behind) =>
      (.except (rangesOf inside), inside.length + 2, behind) :=
  rfl

theorem readBracket?_of_ne (plain : letters.head? ≠ some '!') : readBracket? letters =
    (bracket? letters).map fun (inside, behind) =>
      (.within (rangesOf inside), inside.length + 1, behind) := by
  unfold readBracket?
  split
  · exact absurd rfl plain
  · rfl

theorem readBracket?_append (found : readBracket? letters = some (token, size, behind))
    (rest : List Char) : readBracket? (letters ++ rest) = some (token, size, behind ++ rest) := by
  by_cases negated : letters.head? = some '!'
  · obtain ⟨others, rfl⟩ := List.head?_eq_some_iff.mp negated
    rw [readBracket?_not] at found
    obtain ⟨⟨inside, left⟩, closed, same⟩ := Option.map_eq_some_iff.mp found
    cases same
    rw [List.cons_append, readBracket?_not, bracket?_append closed, Option.map_some]
  · rw [readBracket?_of_ne negated] at found
    obtain ⟨⟨inside, left⟩, closed, same⟩ := Option.map_eq_some_iff.mp found
    cases same
    obtain ⟨first, others, rfl⟩ : ∃ first others, letters = first :: others :=
      List.exists_cons_of_ne_nil (by rintro rfl; cases closed)
    have plain : ((first :: others) ++ rest).head? ≠ some '!' := negated
    rw [readBracket?_of_ne plain, bracket?_append closed, Option.map_some]

/-- A bracket is a token that does not stand for itself, and something is passed. -/
theorem exists_of_readBracket? (found : readBracket? letters = some (token, size, behind)) :
    (∀ letter, token ≠ .letter letter) ∧ ∃ front, front ≠ [] ∧ letters = front ++ behind := by
  unfold readBracket? at found
  split at found
  all_goals
    obtain ⟨⟨inside, left⟩, closed, same⟩ := Option.map_eq_some_iff.mp found
    cases same
    obtain ⟨first, run, shape, -, rfl⟩ := bracket?_eq_some.mp closed
  · exact ⟨fun _ => nofun, '!' :: (inside ++ [']']), List.cons_ne_nil _ _, by simp⟩
  · exact ⟨fun _ => nofun, inside ++ [']'], by simp, by simp⟩

theorem length_lt_of_readBracket? (found : readBracket? letters = some (token, size, behind)) :
    behind.length < letters.length := by
  obtain ⟨-, front, nonempty, rfl⟩ := exists_of_readBracket? found
  have passed := List.length_pos_iff.mpr nonempty
  rw [List.length_append]
  omega

/-! ## What is read next -/

section Steps

variable {letter : Char} {steps position : Nat} {before : Option Char} {tokens : List Token}

theorem readTokens_any : readTokens (steps + 1) position before tokens ('?' :: rest) =
    readTokens steps (position + 1) (some '?') (.anyLetter :: tokens) rest := by
  rw [readTokens, if_pos rfl]

theorem readTokens_bracket (found : readBracket? rest = some (token, size, behind)) :
    readTokens (steps + 1) position before tokens ('[' :: rest) =
      readTokens steps (position + 1 + size) (some ']') (token :: tokens) behind := by
  rw [readTokens, if_neg (by decide), if_neg (by decide), if_pos rfl, found]

theorem readTokens_openBracket (missing : readBracket? rest = none) :
    (readTokens (steps + 1) position before tokens ('[' :: rest)).isOk = false := by
  rw [readTokens, if_neg (by decide), if_neg (by decide), if_pos rfl, missing]
  rfl

theorem readTokens_letter (noAny : letter ≠ '?') (noStar : letter ≠ '*')
    (noBracket : letter ≠ '[') :
    readTokens (steps + 1) position before tokens (letter :: rest) =
      readTokens steps (position + 1) (some letter) (.letter letter :: tokens) rest := by
  rw [readTokens, if_neg noAny, if_neg noStar, if_neg noBracket]

theorem readTokens_star (single : rest.head? ≠ some '*') :
    readTokens (steps + 1) position before tokens ('*' :: rest) =
      readTokens steps (position + 1) (some '*') (.anyRun :: tokens) rest := by
  have noMore : rest.takeWhile (· == '*') = [] := by
    cases rest with
    | nil => rfl
    | cons next others => exact List.takeWhile_cons_of_neg (by simpa using single)
  rw [readTokens, if_neg (by decide), if_pos rfl, noMore]
  exact if_pos rfl

theorem readTokens_stars_end (begins : mayBeginComponent before = true) :
    readTokens (steps + 1) position before tokens ['*', '*'] =
      .ok (pushComponents tokens).reverse := by
  rw [readTokens]
  simp [begins]

theorem readTokens_stars (begins : mayBeginComponent before = true) :
    readTokens (steps + 1) position before tokens ('*' :: '*' :: '/' :: rest) =
      readTokens steps (position + 3) (some '/') (pushComponents tokens) rest := by
  rw [readTokens]
  simp [begins]

theorem takeWhile_star (rest : List Char) :
    ('*' :: rest).takeWhile (· == '*') = '*' :: rest.takeWhile (· == '*') :=
  List.takeWhile_cons_of_pos rfl

theorem readTokens_stars_inside (inside : mayBeginComponent before = false) :
    (readTokens (steps + 1) position before tokens ('*' :: '*' :: rest)).isOk = false := by
  rw [readTokens, if_neg (by decide), if_pos rfl]
  simp only [takeWhile_star, List.length_cons, inside]
  rw [if_neg (by omega)]
  split
  · rfl
  · rfl

theorem readTokens_stars_other (other : letter ≠ '/') :
    (readTokens (steps + 1) position before tokens ('*' :: '*' :: letter :: rest)).isOk =
      false := by
  rw [readTokens, if_neg (by decide), if_pos rfl]
  simp only [takeWhile_star, List.length_cons]
  rw [if_neg (by omega)]
  split
  · rfl
  rename_i two
  split
  · rfl
  -- with two stars, the character behind them is neither a star nor a slash
  have noMore : ((letter :: rest).takeWhile (· == '*')).length = 0 := by omega
  simp only [noMore, Nat.zero_add, Nat.add_sub_cancel, List.drop_succ_cons, List.drop_zero]
  split
  · contradiction
  · rename_i shape
    exact absurd (List.cons.inj shape).1 other
  · rfl

/-- A star stands alone, or a second one ends the pattern, has a slash behind it, or neither. -/
theorem star_cases (rest : List Char) :
    rest.head? ≠ some '*' ∨ rest = ['*'] ∨ (∃ behind, rest = '*' :: '/' :: behind) ∨
      ∃ letter behind, letter ≠ '/' ∧ rest = '*' :: letter :: behind := by
  by_cases single : rest.head? = some '*'
  · obtain ⟨behind, rfl⟩ := List.head?_eq_some_iff.mp single
    cases behind with
    | nil => exact Or.inr (Or.inl rfl)
    | cons letter behind =>
        by_cases isSlash : letter = '/'
        · exact Or.inr (Or.inr (Or.inl ⟨behind, by rw [isSlash]⟩))
        · exact Or.inr (Or.inr (Or.inr ⟨letter, behind, isSlash, rfl⟩))
  · exact Or.inl single

end Steps

/-! ## Reading part by part -/

/-- Reads the rest of a pattern behind a character and the tokens so far, which come last first. -/
inductive Reads : Option Char → List Token → List Char → List Token → Prop where
  | done {before tokens} : Reads before tokens [] tokens.reverse
  | any {before tokens rest read} (further : Reads (some '?') (.anyLetter :: tokens) rest read) :
      Reads before tokens ('?' :: rest) read
  | run {before tokens rest read} (single : rest.head? ≠ some '*')
      (further : Reads (some '*') (.anyRun :: tokens) rest read) :
      Reads before tokens ('*' :: rest) read
  | lastComponents {before tokens} (begins : mayBeginComponent before = true) :
      Reads before tokens ['*', '*'] (pushComponents tokens).reverse
  | components {before tokens rest read} (begins : mayBeginComponent before = true)
      (further : Reads (some '/') (pushComponents tokens) rest read) :
      Reads before tokens ('*' :: '*' :: '/' :: rest) read
  | bracket {before tokens rest token size behind read}
      (found : readBracket? rest = some (token, size, behind))
      (further : Reads (some ']') (token :: tokens) behind read) :
      Reads before tokens ('[' :: rest) read
  | letter {before tokens letter rest read} (noAny : letter ≠ '?') (noStar : letter ≠ '*')
      (noBracket : letter ≠ '[')
      (further : Reads (some letter) (.letter letter :: tokens) rest read) :
      Reads before tokens (letter :: rest) read

section States

variable {steps position : Nat} {before previous : Option Char} {tokens read : List Token}

theorem not_ok_of_isOk {outcome : Except Refusal (List Token)} (refused : outcome.isOk = false) :
    outcome ≠ .ok read := by
  rintro rfl
  cases refused

theorem Reads.of_readTokens (enough : letters.length ≤ steps)
    (succeeded : readTokens steps position before tokens letters = .ok read) :
    Reads before tokens letters read := by
  induction steps generalizing position before tokens letters with
  | zero =>
      obtain rfl := List.length_eq_zero_iff.mp (Nat.le_zero.mp enough)
      cases succeeded
      exact .done
  | succ steps inductionHypothesis =>
      cases letters with
      | nil =>
          cases succeeded
          exact .done
      | cons letter rest =>
          have shorter : rest.length ≤ steps := Nat.le_of_succ_le_succ enough
          by_cases isAny : letter = '?'
          · rw [isAny, readTokens_any] at succeeded
            exact isAny ▸ .any (inductionHypothesis shorter succeeded)
          by_cases isBracket : letter = '['
          · subst isBracket
            cases found : readBracket? rest with
            | none => exact absurd succeeded (not_ok_of_isOk (readTokens_openBracket found))
            | some parts =>
                have less := length_lt_of_readBracket? found
                rw [readTokens_bracket found] at succeeded
                exact .bracket found (inductionHypothesis (by omega) succeeded)
          by_cases isStar : letter = '*'
          · subst isStar
            cases begins : mayBeginComponent before with
            | false =>
                by_cases single : rest.head? = some '*'
                · obtain ⟨behind, rfl⟩ := List.head?_eq_some_iff.mp single
                  exact absurd succeeded (not_ok_of_isOk (readTokens_stars_inside begins))
                · rw [readTokens_star single] at succeeded
                  exact .run single (inductionHypothesis shorter succeeded)
            | true =>
                rcases star_cases rest with single | rfl | ⟨behind, rfl⟩ | ⟨next, _, other, rfl⟩
                · rw [readTokens_star single] at succeeded
                  exact .run single (inductionHypothesis shorter succeeded)
                · rw [readTokens_stars_end begins] at succeeded
                  cases succeeded
                  exact .lastComponents begins
                · rw [List.length_cons, List.length_cons] at shorter
                  rw [readTokens_stars begins] at succeeded
                  exact .components begins (inductionHypothesis (by omega) succeeded)
                · exact absurd succeeded (not_ok_of_isOk (readTokens_stars_other other))
          · rw [readTokens_letter isAny isStar isBracket] at succeeded
            exact .letter isAny isStar isBracket (inductionHypothesis shorter succeeded)

theorem exists_fewer {letter : Char} (enough : (letter :: rest).length ≤ steps) :
    ∃ fewer, steps = fewer + 1 ∧ rest.length ≤ fewer := by
  cases steps with
  | zero => exact absurd enough (Nat.not_succ_le_zero _)
  | succ fewer => exact ⟨fewer, rfl, Nat.le_of_succ_le_succ enough⟩

theorem Reads.readTokens_eq (reads : Reads before tokens letters read)
    (enough : letters.length ≤ steps) :
    readTokens steps position before tokens letters = .ok read := by
  induction reads generalizing steps position with
  | done => cases steps <;> rfl
  | any further inductionHypothesis =>
      obtain ⟨fewer, rfl, shorter⟩ := exists_fewer enough
      rw [readTokens_any]
      exact inductionHypothesis shorter
  | run single further inductionHypothesis =>
      obtain ⟨fewer, rfl, shorter⟩ := exists_fewer enough
      rw [readTokens_star single]
      exact inductionHypothesis shorter
  | lastComponents begins =>
      obtain ⟨fewer, rfl, -⟩ := exists_fewer enough
      exact readTokens_stars_end begins
  | components begins further inductionHypothesis =>
      obtain ⟨fewer, rfl, shorter⟩ := exists_fewer enough
      rw [List.length_cons, List.length_cons] at shorter
      rw [readTokens_stars begins]
      exact inductionHypothesis (by omega)
  | bracket found further inductionHypothesis =>
      obtain ⟨fewer, rfl, shorter⟩ := exists_fewer enough
      have less := length_lt_of_readBracket? found
      rw [readTokens_bracket found]
      exact inductionHypothesis (by omega)
  | letter noAny noStar noBracket further inductionHypothesis =>
      obtain ⟨fewer, rfl, shorter⟩ := exists_fewer enough
      rw [readTokens_letter noAny noStar noBracket]
      exact inductionHypothesis shorter

/-- What was read in front of a text does not decide whether it can be read. -/
theorem Reads.exists_behind (reads : Reads before tokens letters read)
    (same : mayBeginComponent before = mayBeginComponent previous) (earlier : List Token) :
    ∃ other, Reads previous earlier letters other := by
  induction reads generalizing previous earlier with
  | done => exact ⟨_, .done⟩
  | any further inductionHypothesis =>
      obtain ⟨other, reads⟩ := inductionHypothesis rfl (.anyLetter :: earlier)
      exact ⟨other, .any reads⟩
  | run single further inductionHypothesis =>
      obtain ⟨other, reads⟩ := inductionHypothesis rfl (.anyRun :: earlier)
      exact ⟨other, .run single reads⟩
  | lastComponents begins => exact ⟨_, .lastComponents (same ▸ begins)⟩
  | components begins further inductionHypothesis =>
      obtain ⟨other, reads⟩ := inductionHypothesis rfl (pushComponents earlier)
      exact ⟨other, .components (same ▸ begins) reads⟩
  | @bracket _ _ _ token _ _ _ found further inductionHypothesis =>
      obtain ⟨other, reads⟩ := inductionHypothesis rfl (token :: earlier)
      exact ⟨other, .bracket found reads⟩
  | @letter _ _ letter _ _ noAny noStar noBracket further inductionHypothesis =>
      obtain ⟨other, reads⟩ := inductionHypothesis rfl (.letter letter :: earlier)
      exact ⟨other, .letter noAny noStar noBracket reads⟩

end States

theorem reads_of_ofText {pattern : Pattern} (isPattern : Pattern.ofText letters = .ok pattern) :
    Reads none [] letters pattern.tokens := by
  rw [Pattern.ofText] at isPattern
  cases succeeded : readTokens letters.length 0 none [] letters with
  | error refusal =>
      rw [succeeded] at isPattern
      cases isPattern
  | ok read =>
      rw [succeeded] at isPattern
      cases isPattern
      exact .of_readTokens (Nat.le_refl _) succeeded

theorem Reads.ofText_eq {read : List Token} (reads : Reads none [] letters read) :
    Pattern.ofText letters = .ok ⟨read, read.contains .anyComponents⟩ := by
  rw [Pattern.ofText, reads.readTokens_eq (Nat.le_refl _)]
  rfl

theorem isPattern_iff_reads : IsPattern letters ↔ ∃ read, Reads none [] letters read :=
  isPattern_iff.trans ⟨fun ⟨_, isPattern⟩ => ⟨_, reads_of_ofText isPattern⟩,
    fun ⟨_, reads⟩ => ⟨_, reads.ofText_eq⟩⟩

theorem mayBeginComponent_slash : mayBeginComponent none = mayBeginComponent (some '/') :=
  rfl

/-! ## Patterns of components -/

section Components

variable {before : Option Char} {tokens read : List Token}

/-- Behind a slash a pattern is read as from the start. -/
theorem IsPattern.exists_reads_slash (isPattern : IsPattern rest) :
    ∃ read, Reads before tokens ('/' :: rest) read := by
  obtain ⟨_, reads⟩ := isPattern_iff_reads.mp isPattern
  obtain ⟨read, further⟩ := reads.exists_behind mayBeginComponent_slash (.letter '/' :: tokens)
  exact ⟨read, .letter (by decide) (by decide) (by decide) further⟩

/-- Behind a text and a slash a pattern is read as from the start. -/
theorem Reads.exists_append (reads : Reads before tokens letters read) (isRest : IsPattern rest) :
    ∃ whole, Reads before tokens (letters ++ '/' :: rest) whole := by
  induction reads with
  | done => exact isRest.exists_reads_slash
  | any further inductionHypothesis =>
      obtain ⟨whole, reads⟩ := inductionHypothesis
      exact ⟨whole, .any reads⟩
  | @run _ _ letters _ single further inductionHypothesis =>
      obtain ⟨whole, reads⟩ := inductionHypothesis
      have alone : (letters ++ '/' :: rest).head? ≠ some '*' := by
        cases letters with
        | nil => exact nofun
        | cons next others => exact single
      exact ⟨whole, .run alone reads⟩
  | @lastComponents _ tokens begins =>
      obtain ⟨_, reads⟩ := isPattern_iff_reads.mp isRest
      obtain ⟨whole, further⟩ :=
        reads.exists_behind mayBeginComponent_slash (pushComponents tokens)
      exact ⟨whole, .components begins further⟩
  | components begins further inductionHypothesis =>
      obtain ⟨whole, reads⟩ := inductionHypothesis
      exact ⟨whole, .components begins reads⟩
  | bracket found further inductionHypothesis =>
      obtain ⟨whole, reads⟩ := inductionHypothesis
      exact ⟨whole, .bracket (readBracket?_append found _) reads⟩
  | letter noAny noStar noBracket further inductionHypothesis =>
      obtain ⟨whole, reads⟩ := inductionHypothesis
      exact ⟨whole, .letter noAny noStar noBracket reads⟩

theorem isPattern_nil : IsPattern [] := by
  decide

theorem IsPattern.append (isPattern : IsPattern letters) (isRest : IsPattern rest) :
    IsPattern (letters ++ '/' :: rest) := by
  obtain ⟨read, reads⟩ := isPattern_iff_reads.mp isPattern
  exact isPattern_iff_reads.mpr (reads.exists_append isRest)

/-- A text is a pattern if all of its components are. -/
theorem IsWalkable.isPattern (isWalkable : IsWalkable letters) : IsPattern letters := by
  have joined : ∀ pieces : List (List Char), (∀ piece ∈ pieces, IsPattern piece) →
      IsPattern (joinWith '/' pieces) := by
    intro pieces arePatterns
    induction pieces with
    | nil => exact isPattern_nil
    | cons piece others inductionHypothesis =>
        rw [List.forall_mem_cons] at arePatterns
        cases others with
        | nil => exact arePatterns.1
        | cons next others => exact arePatterns.1.append (inductionHypothesis arePatterns.2)
  rw [← joinWith_splitOn '/' letters]
  exact joined _ isWalkable

end Components

/-! ## Characters that stand for themselves -/

section Letters

variable {before : Option Char} {tokens read : List Token} {letter : Char}

theorem mem_of_mem_pushComponents (member : .letter letter ∈ pushComponents tokens) :
    .letter letter ∈ tokens := by
  unfold pushComponents at member
  split at member
  · exact member
  · exact (List.mem_cons.mp member).resolve_left nofun

theorem mem_behind_token {token : Token} (member : .letter letter ∈ token :: tokens)
    (other : ∀ letter, token ≠ .letter letter) : .letter letter ∈ tokens :=
  (List.mem_cons.mp member).resolve_left (other letter).symm

theorem Reads.mem (reads : Reads before tokens letters read) (member : .letter letter ∈ read) :
    .letter letter ∈ tokens ∨ letter ∈ letters := by
  induction reads with
  | done => exact Or.inl (List.mem_reverse.mp member)
  | any further inductionHypothesis =>
      rcases inductionHypothesis member with earlier | later
      · exact Or.inl (mem_behind_token earlier fun _ => nofun)
      · exact Or.inr (List.mem_cons_of_mem _ later)
  | run single further inductionHypothesis =>
      rcases inductionHypothesis member with earlier | later
      · exact Or.inl (mem_behind_token earlier fun _ => nofun)
      · exact Or.inr (List.mem_cons_of_mem _ later)
  | lastComponents begins =>
      exact Or.inl (mem_of_mem_pushComponents (List.mem_reverse.mp member))
  | components begins further inductionHypothesis =>
      exact (inductionHypothesis member).imp mem_of_mem_pushComponents fun later =>
        List.mem_cons_of_mem _ (List.mem_cons_of_mem _ (List.mem_cons_of_mem _ later))
  | bracket found further inductionHypothesis =>
      obtain ⟨other, front, -, rfl⟩ := exists_of_readBracket? found
      rcases inductionHypothesis member with earlier | later
      · exact Or.inl (mem_behind_token earlier other)
      · exact Or.inr (List.mem_cons_of_mem _ (List.mem_append_right _ later))
  | letter noAny noStar noBracket further inductionHypothesis =>
      rcases inductionHypothesis member with earlier | later
      · rcases List.mem_cons.mp earlier with same | earlier
        · cases same
          exact Or.inr List.mem_cons_self
        · exact Or.inl earlier
      · exact Or.inr (List.mem_cons_of_mem _ later)

theorem Pattern.tokens_eq_of_literal? {pattern : Pattern} {name : List Char}
    (literal : pattern.literal? = some name) : pattern.tokens = name.map .letter := by
  obtain ⟨tokens, isRecursive⟩ := pattern
  induction tokens generalizing name with
  | nil =>
      cases literal
      rfl
  | cons token tokens inductionHypothesis =>
      rw [literal?, List.mapM_cons] at literal
      obtain ⟨first, isFirst, further⟩ := Option.bind_eq_some_iff.mp literal
      obtain ⟨others, areOthers, same⟩ := Option.bind_eq_some_iff.mp further
      cases same
      cases token with
      | letter value =>
          cases isFirst
          exact congrArg (.letter first :: ·) (inductionHypothesis areOthers)
      | _ => cases isFirst

/-- A pattern that stands for one text only stands for characters of its own text. -/
theorem Pattern.mem_of_literal? {pattern : Pattern} {name : List Char}
    (isPattern : Pattern.ofText letters = .ok pattern) (literal : pattern.literal? = some name)
    (member : letter ∈ name) : letter ∈ letters := by
  have isToken : .letter letter ∈ pattern.tokens := by
    rw [Pattern.tokens_eq_of_literal? literal]
    exact List.mem_map_of_mem member
  exact ((reads_of_ofText isPattern).mem isToken).resolve_left List.not_mem_nil

end Letters

end ScriptLint.Glob
