import ScriptLint.Proofs.Source.Head
import ScriptLint.Proofs.Text.Preferred

/-!
# Keywords

The words of a text are the runs of letters between its other characters. A pattern that asks for a
keyword at the edge of a word has a run only where a word of the text begins with the keyword, and
if it asks for white space behind the keyword, the keyword is a word of the text. So a text without
such a word has no match, and a text that begins with the keyword, perhaps behind white space, has
no match anywhere else unless the keyword is among the words that follow.
-/

namespace ScriptLint.Text

/-- The words of a text. Between two neighbouring marks stands an empty one. -/
def words (letters : List Char) : List (List Char) :=
  letters.splitOnP fun letter => !letter.isAlpha

variable {word front before after rest : List Char} {mark : Char}

theorem words_append_cons (front : List Char) (outside : mark.isAlpha = false)
    (rest : List Char) : words (front ++ mark :: rest) = words front ++ words rest :=
  List.splitOnP_append_cons front rest ((Bool.not_eq_true' _).mpr outside)

theorem words_cons (outside : mark.isAlpha = false) (rest : List Char) :
    words (mark :: rest) = [] :: words rest :=
  words_append_cons [] outside rest

theorem words_append_of_forall (blank : ∀ letter ∈ front, letter.isAlpha = false)
    (rest : List Char) : words (front ++ rest) = List.replicate front.length [] ++ words rest := by
  induction front with
  | nil => rfl
  | cons mark others inductionHypothesis =>
      rw [List.forall_mem_cons] at blank
      rw [List.cons_append, words_cons blank.1, inductionHypothesis blank.2]
      rfl

theorem words_of_isAlpha (alphabetic : ∀ letter ∈ word, letter.isAlpha = true) :
    words word = [word] :=
  List.splitOnP_eq_singleton fun letter member => by rw [alphabetic letter member]; rfl

/-- A run of letters at the start of a text begins its first word. -/
theorem exists_words_append (alphabetic : ∀ letter ∈ word, letter.isAlpha = true)
    (after : List Char) :
    ∃ others, words (word ++ after) = (word ++ after.takeWhile Char.isAlpha) :: others := by
  have inside : ∀ letter ∈ word ++ after.takeWhile Char.isAlpha, letter.isAlpha = true :=
    List.forall_mem_append.mpr ⟨alphabetic, fun _ => List.mem_takeWhile_imp⟩
  have whole : word ++ after =
      (word ++ after.takeWhile Char.isAlpha) ++ after.dropWhile Char.isAlpha := by
    rw [List.append_assoc, List.takeWhile_append_dropWhile]
  rw [whole]
  cases behind : after.dropWhile Char.isAlpha with
  | nil =>
      rw [List.append_nil, words_of_isAlpha inside]
      exact ⟨[], rfl⟩
  | cons mark rest =>
      have outside : mark.isAlpha = false := by
        have stops := List.head?_dropWhile_not Char.isAlpha after
        rw [behind] at stops
        simpa using stops
      rw [words_append_cons _ outside, words_of_isAlpha inside]
      exact ⟨words rest, rfl⟩

/-- Behind a character that is no letter the words of the rest are words of the text. -/
theorem suffix_words (edge : before.getLast?.any Char.isAlpha = false) (after : List Char) :
    words after <:+ words (before ++ after) := by
  rcases List.eq_nil_or_concat' before with rfl | ⟨others, mark, rfl⟩
  · exact List.suffix_rfl
  · have outside : mark.isAlpha = false := by simpa using edge
    rw [List.append_assoc, List.singleton_append, words_append_cons others outside]
    exact List.suffix_append _ _

theorem isAlpha_of_edge (edge : before.getLast?.any isWord = false) :
    before.getLast?.any Char.isAlpha = false := by
  cases last : before.getLast? with
  | none => rfl
  | some letter =>
      rw [last, Option.any_some] at edge
      rw [Option.any_some, Bool.eq_false_iff]
      intro alphabetic
      rw [isWord_of_isAlpha alphabetic] at edge
      cases edge

section Edge

variable (alphabetic : ∀ letter ∈ word, letter.isAlpha = true)
  (edge : before.getLast?.any Char.isAlpha = false)

include alphabetic edge

theorem exists_word_of_edge (after : List Char) :
    ∃ found ∈ words (before ++ (word ++ after)), word <+: found := by
  obtain ⟨others, wordsEq⟩ := exists_words_append alphabetic after
  refine ⟨word ++ after.takeWhile Char.isAlpha, ?_, List.prefix_append _ _⟩
  apply (suffix_words edge (word ++ after)).subset
  rw [wordsEq]
  exact List.mem_cons_self

theorem mem_words_of_edge (ends : EndsClass Char.isAlpha after) :
    word ∈ words (before ++ (word ++ after)) := by
  obtain ⟨others, wordsEq⟩ := exists_words_append alphabetic after
  have nothing : after.takeWhile Char.isAlpha = [] :=
    takeWhile_of_endsClass (List.forall_mem_nil _) ends
  apply (suffix_words edge (word ++ after)).subset
  rw [wordsEq, nothing, List.append_nil]
  exact List.mem_cons_self

end Edge

/-- A word that begins where an expected word of a text begins, and is not among the words behind
that one, begins nowhere else. -/
theorem eq_of_edge {blanks expected found following behind : List Char} (nonempty : found ≠ [])
    (alphabetic : ∀ letter ∈ found, letter.isAlpha = true)
    (blank : ∀ letter ∈ blanks, letter.isAlpha = false)
    (inside : ∀ letter ∈ expected, letter.isAlpha = true) (outside : mark.isAlpha = false)
    (absent : found ∉ words following) (edge : front.getLast?.any Char.isAlpha = false)
    (ends : EndsClass Char.isAlpha behind)
    (same : blanks ++ (expected ++ mark :: following) = front ++ (found ++ behind)) :
    front = blanks := by
  obtain ⟨first, others, rfl⟩ := List.exists_cons_of_ne_nil nonempty
  have firstAlphabetic := alphabetic first List.mem_cons_self
  rcases List.append_eq_append_iff.mp same with
    ⟨between, rfl, restEq⟩ | ⟨between, rfl, restEq⟩
  · by_cases nothing : between = []
    · rw [nothing, List.append_nil]
    rw [List.getLast?_append_of_ne_nil _ nothing] at edge
    rcases List.append_eq_append_iff.mp restEq with
      ⟨passed, rfl, markEq⟩ | ⟨passed, rfl, _⟩
    · cases passed with
      | nil =>
          rw [← (List.cons.inj markEq).1, outside] at firstAlphabetic
          cases firstAlphabetic
      | cons found passed =>
          obtain ⟨_, followingEq⟩ := List.cons.inj markEq
          rw [List.getLast?_append_of_ne_nil _ (List.cons_ne_nil found passed)] at edge
          have edgePassed : passed.getLast?.any Char.isAlpha = false := by
            rcases List.eq_nil_or_concat' passed with rfl | ⟨initial, last, rfl⟩
            · rfl
            · rw [← List.cons_append, List.getLast?_concat] at edge
              rw [List.getLast?_concat]
              exact edge
          rw [followingEq] at absent
          exact absurd (mem_words_of_edge alphabetic edgePassed ends) absent
    · obtain ⟨initial, last, rfl⟩ := (List.eq_nil_or_concat' between).resolve_left nothing
      have isLast : last.isAlpha = true := inside last (by simp)
      have noLast : last.isAlpha = false := by simpa using edge
      rw [isLast] at noLast
      cases noLast
  · cases between with
    | nil => exact (List.append_nil front).symm
    | cons space others =>
        rw [(List.cons.inj restEq).1, blank space (by simp)] at firstAlphabetic
        cases firstAlphabetic

namespace Pattern

variable {keywords : List String} {patterns : List Pattern} {run letters : List Char}

/-- The keywords are words. -/
def AreWords (keywords : List String) : Prop :=
  ∀ keyword ∈ keywords, keyword.toList ≠ [] ∧ keyword.toList.all Char.isAlpha = true

instance (keywords : List String) : Decidable (AreWords keywords) :=
  inferInstanceAs (Decidable (∀ keyword ∈ keywords, _))

theorem Fits.exists_keyword (areWords : AreWords keywords)
    (fits : (inOrder (atWordEdge :: wordOf keywords :: patterns)).Fits before run after) :
    ∃ keyword ∈ keywords, ∃ further, run = keyword.toList ++ further ∧
      before.getLast?.any Char.isAlpha = false ∧
        (inOrder patterns).Fits (before ++ keyword.toList) further after := by
  simp only [fits_inOrder_cons, fits_atWordEdge, fits_wordOf] at fits
  obtain ⟨_, _, rfl, ⟨rfl, edge⟩, _, further, rfl, ⟨keyword, member, rfl⟩, rest⟩ := fits
  obtain ⟨nonempty, spelled⟩ := areWords keyword member
  have inside : ∀ letter ∈ keyword.toList, isWord letter = true := fun letter isLetter =>
    isWord_of_isAlpha (List.all_eq_true.mp spelled letter isLetter)
  have shown := head?_append_any nonempty inside (further ++ after)
  refine ⟨keyword, member, further, List.nil_append _, ?_, ?_⟩
  · rw [List.append_assoc, shown] at edge
    exact isAlpha_of_edge (Bool.eq_false_iff.mpr edge)
  · rw [List.append_nil] at rest
    exact rest

theorem Fits.endsClass_gap (fits : (inOrder (gap :: patterns)).Fits before run after) :
    EndsClass Char.isAlpha (run ++ after) := by
  obtain ⟨spaces, further, rfl, isGap, _⟩ := (fits_inOrder_cons patterns).mp fits
  obtain ⟨nonempty, spaced⟩ := fits_gap.mp isGap
  obtain ⟨space, others, rfl⟩ := List.exists_cons_of_ne_nil nonempty
  exact endsClass_cons (isAlpha_of_isSpace (spaced space List.mem_cons_self)) _

/-! ## Texts without a keyword -/

/-- A text has no match of a pattern for a keyword and white space behind it, if the keyword is none
of its words. -/
theorem misses_keyword (areWords : AreWords keywords)
    (absent : ∀ keyword ∈ keywords, keyword.toList ∉ words (before ++ rest)) :
    (inOrder (atWordEdge :: wordOf keywords :: gap :: patterns)).Misses before rest := by
  rintro run after rfl fits
  obtain ⟨keyword, member, further, rfl, edge, isGap⟩ := fits.exists_keyword areWords
  have alphabetic := List.all_eq_true.mp (areWords keyword member).2
  rw [List.append_assoc] at absent
  exact absent keyword member (mem_words_of_edge alphabetic edge isGap.endsClass_gap)

/-- A text has no match of a pattern for words that begin with a keyword, if none of its words
does. -/
theorem misses_beginning (areWords : AreWords keywords)
    (absent : ∀ keyword ∈ keywords, ∀ word ∈ words (before ++ rest), ¬ keyword.toList <+: word) :
    (inOrder (atWordEdge :: wordOf keywords :: patterns)).Misses before rest := by
  rintro run after rfl fits
  obtain ⟨keyword, member, further, rfl, edge, _⟩ := fits.exists_keyword areWords
  have alphabetic := List.all_eq_true.mp (areWords keyword member).2
  obtain ⟨word, isWord, begins⟩ := exists_word_of_edge alphabetic edge (further ++ after)
  rw [List.append_assoc] at absent
  exact absent keyword member word isWord begins

theorem occursIn_eq_false {pattern : Pattern}
    (misses : ∀ front back, letters = front ++ back → pattern.Misses front back) :
    pattern.occursIn letters = false := by
  rw [Bool.eq_false_iff]
  intro occurs
  obtain ⟨before, run, after, shape, fits⟩ := occursIn_iff_fits.mp occurs
  rw [List.append_assoc] at shape
  exact misses before (run ++ after) shape run after rfl fits

/-! ## Texts that begin with a keyword -/

/-- A keyword that stands behind white space is found there and, if none of the words that follow is
one, nowhere else. -/
theorem searchAll_eq_singleton {blanks expected further : List Char} {spans : List (Nat × Span)}
    (areWords : AreWords keywords) (blank : ∀ letter ∈ blanks, letter.isAlpha = false)
    (inside : ∀ letter ∈ expected, letter.isAlpha = true) (outside : mark.isAlpha = false)
    (prefers : (inOrder (atWordEdge :: wordOf keywords :: gap :: patterns)).Prefers blanks
      (expected ++ mark :: further) after spans)
    (absent : ∀ keyword ∈ keywords, keyword.toList ∉ words (further ++ after)) :
    (inOrder (atWordEdge :: wordOf keywords :: gap :: patterns)).searchAll
        (blanks ++ (expected ++ mark :: further ++ after)) =
      [⟨spanBehind blanks (expected ++ mark :: further), spans⟩] := by
  refine prefers.searchAll_eq (by simp) ?_
  rintro front _ shape other run behind rfl fits
  obtain ⟨keyword, member, passed, rfl, edge, isGap⟩ := fits.exists_keyword areWords
  obtain ⟨nonempty, spelled⟩ := areWords keyword member
  rw [List.append_assoc, List.append_assoc, List.cons_append] at shape
  exact other (eq_of_edge nonempty (List.all_eq_true.mp spelled) blank inside outside
    (absent keyword member) edge isGap.endsClass_gap shape)

end Pattern

end ScriptLint.Text
