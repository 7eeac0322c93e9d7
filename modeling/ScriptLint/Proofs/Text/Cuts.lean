import ScriptLint.Proofs.Text.Fits

/-!
# Texts that a mark cuts

Of the text around its run a pattern without conditions on the start and the end sees no more than
whether a word goes on there. So a mark that no run passes, and that is no part of a word, cuts a
text into two parts that do not know of each other: a pattern occurs in the text if it occurs in
one of the parts. A condition on the start or the end leaves the first part or the last one.
-/

namespace ScriptLint.Text

variable {mark : Char} {before run after front rest : List Char}

/-- A run without the mark lies before the mark or behind it. -/
theorem exists_cut (absent : mark ∉ run) (same : before ++ (run ++ after) = front ++ mark :: rest) :
    (∃ between, front = before ++ run ++ between ∧ after = between ++ mark :: rest) ∨
      ∃ between, before = front ++ mark :: between ∧ rest = between ++ run ++ after := by
  rcases List.append_eq_append_iff.mp same with
    ⟨between, rfl, restEq⟩ | ⟨between, rfl, restEq⟩
  · left
    rcases List.append_eq_append_iff.mp restEq with
      ⟨further, rfl, afterEq⟩ | ⟨further, rfl, markEq⟩
    · exact ⟨further, (List.append_assoc before run further).symm, afterEq⟩
    · cases further with
      | nil => exact ⟨[], by simp, markEq.symm⟩
      | cons letter others =>
          apply absurd _ absent
          rw [(List.cons.inj markEq).1]
          exact List.mem_append_right between List.mem_cons_self
  · cases between with
    | nil =>
        cases run with
        | nil => exact Or.inl ⟨[], by simp, restEq.symm⟩
        | cons letter others =>
            apply absurd _ absent
            rw [(List.cons.inj restEq).1]
            exact List.mem_cons_self
    | cons letter others =>
        obtain ⟨rfl, othersEq⟩ := List.cons.inj restEq
        exact Or.inr ⟨others, rfl, othersEq.trans (List.append_assoc others run after).symm⟩

section Edge

variable {test : Char → Bool} (outside : test mark = false) (between : List Char)

include outside

theorem head?_any_append_mark (rest : List Char) :
    (between ++ mark :: rest).head?.any test = between.head?.any test := by
  cases between with
  | nil => exact outside
  | cons letter others => rfl

theorem getLast?_any_append_mark (front : List Char) :
    (front ++ mark :: between).getLast?.any test = between.getLast?.any test := by
  rw [List.getLast?_append_of_ne_nil _ (List.cons_ne_nil mark between), List.getLast?_cons]
  cases between.getLast? with
  | none => exact outside
  | some letter => rfl

end Edge

theorem endsIn_append_mark {marker : String} (absent : mark ∉ marker.toList)
    (front rest : List Char) : endsIn marker (front ++ mark :: rest) = endsIn marker rest := by
  unfold endsIn
  rw [Bool.eq_iff_iff, List.isSuffixOf_iff_suffix, List.isSuffixOf_iff_suffix]
  constructor
  · rintro ⟨before, same⟩
    have split : before ++ (marker.toList ++ []) = front ++ mark :: rest := by
      rw [List.append_nil, same]
    rcases exists_cut absent split with ⟨between, _, noRest⟩ | ⟨between, _, restEq⟩
    · exact absurd noRest (by simp)
    · exact ⟨between, by rw [restEq, List.append_nil]⟩
  · intro ends
    exact ends.trans ((List.suffix_cons mark rest).trans (List.suffix_append front _))

theorem beginsWith_append_mark {marker : String} (absent : mark ∉ marker.toList)
    (front rest : List Char) :
    beginsWith marker (front ++ mark :: rest) = beginsWith marker front := by
  unfold beginsWith
  rw [Bool.eq_iff_iff, List.isPrefixOf_iff_prefix, List.isPrefixOf_iff_prefix]
  constructor
  · rintro ⟨after, same⟩
    have split : [] ++ (marker.toList ++ after) = front ++ mark :: rest := same
    rcases exists_cut absent split with ⟨between, frontEq, _⟩ | ⟨between, nothing, _⟩
    · exact ⟨between, frontEq.symm⟩
    · exact absurd nothing (by simp)
  · intro begins
    exact begins.trans (List.prefix_append front _)

namespace Pattern

variable {pattern : Pattern} {patterns : List Pattern}

/-- Of the text before its run the pattern sees at most whether a word goes on there. -/
def LooksBack (pattern : Pattern) : Prop :=
  ∀ before other run after, before.getLast?.any isWord = other.getLast?.any isWord →
    pattern.Fits before run after → pattern.Fits other run after

/-- Of the text behind its run the pattern sees at most whether a word goes on there. -/
def LooksAhead (pattern : Pattern) : Prop :=
  ∀ before run after other, after.head?.any isWord = other.head?.any isWord →
    pattern.Fits before run after → pattern.Fits before run other

section Described

variable {words : List Char → Prop}
  (described : ∀ before run after, pattern.Fits before run after ↔ words run)

include described

theorem looksBack_of_iff : pattern.LooksBack :=
  fun _ _ _ _ _ fits => (described _ _ _).mpr ((described _ _ _).mp fits)

theorem looksAhead_of_iff : pattern.LooksAhead :=
  fun _ _ _ _ _ fits => (described _ _ _).mpr ((described _ _ _).mp fits)

end Described

@[simp]
theorem looksBack_literal (text : String) : (literal text).LooksBack :=
  looksBack_of_iff fun _ _ _ => fits_literal

@[simp]
theorem looksAhead_literal (text : String) : (literal text).LooksAhead :=
  looksAhead_of_iff fun _ _ _ => fits_literal

@[simp]
theorem looksAhead_wordOf (words : List String) : (wordOf words).LooksAhead :=
  looksAhead_of_iff fun _ _ _ => fits_wordOf

@[simp]
theorem looksBack_gap : gap.LooksBack := looksBack_of_iff fun _ _ _ => fits_gap

@[simp]
theorem looksAhead_gap : gap.LooksAhead := looksAhead_of_iff fun _ _ _ => fits_gap

@[simp]
theorem looksBack_identifier : identifier.LooksBack := looksBack_of_iff fun _ _ _ => fits_identifier

@[simp]
theorem looksAhead_identifier : identifier.LooksAhead :=
  looksAhead_of_iff fun _ _ _ => fits_identifier

@[simp]
theorem looksBack_spaces : spaces.LooksBack := looksBack_of_iff fun _ _ _ => fits_spaces

@[simp]
theorem looksBack_atWordEdge : atWordEdge.LooksBack := by
  intro before other run after same fits
  rw [fits_atWordEdge] at fits ⊢
  rwa [← same]

@[simp]
theorem looksAhead_atWordEdge : atWordEdge.LooksAhead := by
  intro before run after other same fits
  rw [fits_atWordEdge] at fits ⊢
  rwa [← same]

@[simp]
theorem looksBack_atEnd : atEnd.LooksBack := by
  intro before other run after _ fits
  rwa [fits_atEnd] at fits ⊢

@[simp]
theorem looksAhead_atStart : atStart.LooksAhead := by
  intro before run after other _ fits
  rwa [fits_atStart] at fits ⊢

theorem looksAhead_optional (looksAhead : pattern.LooksAhead) :
    (optional pattern).LooksAhead := by
  intro before run after other same fits
  rw [fits_optional] at fits ⊢
  exact fits.imp_left (looksAhead before run after other same)

theorem looksBack_inOrder (each : ∀ pattern ∈ patterns, pattern.LooksBack) :
    (inOrder patterns).LooksBack := by
  induction patterns with
  | nil => exact looksBack_of_iff fun _ _ _ => fits_inOrder_nil
  | cons first others inductionHypothesis =>
      rw [List.forall_mem_cons] at each
      intro before other run after same fits
      rw [fits_inOrder_cons] at fits ⊢
      obtain ⟨here, later, rfl, firstFits, othersFit⟩ := fits
      refine ⟨here, later, rfl, each.1 _ _ _ _ same firstFits, ?_⟩
      apply inductionHypothesis each.2 _ _ _ _ _ othersFit
      rw [List.getLast?_append, List.getLast?_append]
      cases here.getLast? with
      | none => exact same
      | some letter => rfl

theorem looksAhead_inOrder (each : ∀ pattern ∈ patterns, pattern.LooksAhead) :
    (inOrder patterns).LooksAhead := by
  induction patterns with
  | nil => exact looksAhead_of_iff fun _ _ _ => fits_inOrder_nil
  | cons first others inductionHypothesis =>
      rw [List.forall_mem_cons] at each
      intro before run after other same fits
      rw [fits_inOrder_cons] at fits ⊢
      obtain ⟨here, later, rfl, firstFits, othersFit⟩ := fits
      refine ⟨here, later, rfl, ?_, inductionHypothesis each.2 _ _ _ _ same othersFit⟩
      apply each.1 _ _ _ _ _ firstFits
      cases later with
      | nil => exact same
      | cons letter further => rfl

theorem fits_inOrder_append (patterns others : List Pattern) :
    (inOrder (patterns ++ others)).Fits before run after ↔
      ∃ front back, run = front ++ back ∧ (inOrder patterns).Fits before front (back ++ after) ∧
        (inOrder others).Fits (before ++ front) back after := by
  rw [inOrder, List.foldl_append, fits_foldl]
  rfl

theorem Fits.before_eq_nil (fits : (inOrder (atStart :: patterns)).Fits before run after) :
    before = [] := by
  obtain ⟨_, _, _, starts, _⟩ := (fits_inOrder_cons patterns).mp fits
  exact (fits_atStart.mp starts).2

theorem Fits.after_eq_nil (patterns : List Pattern)
    (fits : (inOrder (patterns ++ [atEnd])).Fits before run after) : after = [] := by
  obtain ⟨_, _, _, _, further⟩ := (fits_inOrder_append patterns [atEnd]).mp fits
  obtain ⟨_, back, rfl, ends, nothing⟩ := (fits_inOrder_cons []).mp further
  have noRest := (fits_atEnd.mp ends).2
  exact (List.append_eq_nil_iff.mp noRest).2

/-! ## A mark -/

section Mark

variable (avoids : pattern.Only (· ≠ mark)) (outside : isWord mark = false)

include avoids

theorem Fits.mark_not_mem (fits : pattern.Fits before run after) : mark ∉ run :=
  fun member => fits.only avoids mark member rfl

theorem occursIn_cases (occurs : pattern.occursIn (front ++ mark :: rest) = true) :
    (∃ before run between, front = before ++ run ++ between ∧
        pattern.Fits before run (between ++ mark :: rest)) ∨
      ∃ between run after, rest = between ++ run ++ after ∧
        pattern.Fits (front ++ mark :: between) run after := by
  obtain ⟨before, run, after, same, fits⟩ := occursIn_iff_fits.mp occurs
  rw [List.append_assoc] at same
  rcases exists_cut (fits.mark_not_mem avoids) same.symm with
    ⟨between, frontEq, rfl⟩ | ⟨between, rfl, restEq⟩
  · exact Or.inl ⟨before, run, between, frontEq, fits⟩
  · exact Or.inr ⟨between, run, after, restEq, fits⟩

omit avoids
include outside

theorem fits_append_mark_iff (looksAhead : pattern.LooksAhead) (between rest : List Char) :
    pattern.Fits before run (between ++ mark :: rest) ↔ pattern.Fits before run between := by
  have same := head?_any_append_mark outside between rest
  exact ⟨looksAhead _ _ _ _ same, looksAhead _ _ _ _ same.symm⟩

theorem fits_mark_append_iff (looksBack : pattern.LooksBack) (front between : List Char) :
    pattern.Fits (front ++ mark :: between) run after ↔ pattern.Fits between run after := by
  have same := getLast?_any_append_mark outside between front
  exact ⟨looksBack _ _ _ _ same, looksBack _ _ _ _ same.symm⟩

theorem occursIn_of_front (looksAhead : pattern.LooksAhead) (rest : List Char)
    (occurs : pattern.occursIn front = true) :
    pattern.occursIn (front ++ mark :: rest) = true := by
  obtain ⟨before, run, between, rfl, fits⟩ := occursIn_iff_fits.mp occurs
  refine occursIn_iff_fits.mpr ⟨before, run, between ++ mark :: rest, ?_, ?_⟩
  · rw [List.append_assoc]
  · exact (fits_append_mark_iff outside looksAhead between rest).mpr fits

theorem occursIn_of_rest (looksBack : pattern.LooksBack) (front : List Char)
    (occurs : pattern.occursIn rest = true) :
    pattern.occursIn (front ++ mark :: rest) = true := by
  obtain ⟨between, run, after, rfl, fits⟩ := occursIn_iff_fits.mp occurs
  refine occursIn_iff_fits.mpr ⟨front ++ mark :: between, run, after, ?_, ?_⟩
  · simp
  · exact (fits_mark_append_iff outside looksBack front between).mpr fits

include avoids

/-- The mark cuts the text in two. -/
theorem occursIn_append_mark (looksBack : pattern.LooksBack) (looksAhead : pattern.LooksAhead)
    (front rest : List Char) :
    pattern.occursIn (front ++ mark :: rest) =
      (pattern.occursIn front || pattern.occursIn rest) := by
  rw [Bool.eq_iff_iff, Bool.or_eq_true]
  constructor
  · intro occurs
    rcases occursIn_cases avoids occurs with
      ⟨before, run, between, frontEq, fits⟩ | ⟨between, run, after, restEq, fits⟩
    · left
      rw [fits_append_mark_iff outside looksAhead] at fits
      exact occursIn_iff_fits.mpr ⟨before, run, between, frontEq, fits⟩
    · right
      rw [fits_mark_append_iff outside looksBack] at fits
      exact occursIn_iff_fits.mpr ⟨between, run, after, restEq, fits⟩
  · rintro (occurs | occurs)
    · exact occursIn_of_front outside looksAhead rest occurs
    · exact occursIn_of_rest outside looksBack front occurs

/-- A pattern that runs to the end has the part behind the mark. -/
theorem occursIn_append_mark_of_ends (looksBack : pattern.LooksBack)
    (ends : ∀ before run after, pattern.Fits before run after → after = [])
    (front rest : List Char) :
    pattern.occursIn (front ++ mark :: rest) = pattern.occursIn rest := by
  rw [Bool.eq_iff_iff]
  constructor
  · intro occurs
    rcases occursIn_cases avoids occurs with
      ⟨before, run, between, _, fits⟩ | ⟨between, run, after, restEq, fits⟩
    · exact absurd (ends _ _ _ fits) (by simp)
    · rw [fits_mark_append_iff outside looksBack] at fits
      exact occursIn_iff_fits.mpr ⟨between, run, after, restEq, fits⟩
  · exact occursIn_of_rest outside looksBack front

/-- A pattern that runs from the start has the part before the mark. -/
theorem occursIn_append_mark_of_starts (looksAhead : pattern.LooksAhead)
    (starts : ∀ before run after, pattern.Fits before run after → before = [])
    (front rest : List Char) :
    pattern.occursIn (front ++ mark :: rest) = pattern.occursIn front := by
  rw [Bool.eq_iff_iff]
  constructor
  · intro occurs
    rcases occursIn_cases avoids occurs with
      ⟨before, run, between, frontEq, fits⟩ | ⟨between, run, after, _, fits⟩
    · rw [fits_append_mark_iff outside looksAhead] at fits
      exact occursIn_iff_fits.mpr ⟨before, run, between, frontEq, fits⟩
    · exact absurd (starts _ _ _ fits) (by simp)
  · exact occursIn_of_front outside looksAhead rest

end Mark

/-! ## A stretch of any characters -/

section Stretch

variable {opening ending : List Pattern} {accepts : Char → Bool} {between other : List Char}
  (opens : (inOrder opening).Only (· ≠ mark)) (closes : (inOrder ending).Only (· ≠ mark))
  (outside : isWord mark = false)
  (looksAhead : (inOrder opening).LooksAhead) (looksBack : (inOrder ending).LooksBack)
  (starts : ∀ before run after, (inOrder opening).Fits before run after → before = [])
  (ends : ∀ before run after, (inOrder ending).Fits before run after → after = [])

include outside looksAhead looksBack

section Ends

include opens closes starts ends

/-- The beginning lies before the first mark and the end behind the second one. -/
theorem exists_stretch (occurs : (inOrder (opening ++ many (one accepts) :: ending)).occursIn
      (front ++ mark :: (between ++ mark :: rest)) = true) :
    ∃ start kept passed finish, front = start ++ kept ∧ rest = passed ++ finish ∧
      (inOrder opening).Fits [] start kept ∧ (inOrder ending).Fits passed finish [] ∧
      accepts mark = true ∧ (∀ letter ∈ kept, accepts letter = true) ∧
      ∀ letter ∈ passed, accepts letter = true := by
  obtain ⟨before, run, after, same, fits⟩ := occursIn_iff_fits.mp occurs
  obtain ⟨start, _, rfl, startFits, further⟩ := (fits_inOrder_append _ _).mp fits
  obtain ⟨stretch, finish, rfl, stretchFits, finishFits⟩ := (fits_inOrder_cons _).mp further
  have noBefore := starts _ _ _ startFits
  have noAfter := ends _ _ _ finishFits
  subst noBefore noAfter
  have cutStart : [] ++ (start ++ (stretch ++ finish)) =
      front ++ mark :: (between ++ mark :: rest) := by
    simpa using same.symm
  rcases exists_cut (startFits.mark_not_mem opens) cutStart with
    ⟨kept, rfl, stretchEq⟩ | ⟨_, nothing, _⟩
  · have cutFinish : stretch ++ (finish ++ []) =
        (kept ++ mark :: between) ++ mark :: rest := by
      simpa using stretchEq
    rcases exists_cut (finishFits.mark_not_mem closes) cutFinish with
      ⟨_, _, nothing⟩ | ⟨passed, rfl, rfl⟩
    · exact absurd nothing (by simp)
    · have accepted := (Spells.many_one accepts).fits_iff.mp stretchFits
      simp only [List.forall_mem_append, List.forall_mem_cons] at accepted
      have startKept : (inOrder opening).Fits [] start kept := by
        apply looksAhead _ _ _ _ _ startFits
        simp only [List.append_assoc, List.cons_append]
        exact head?_any_append_mark outside kept _
      have finishKept : (inOrder ending).Fits passed finish [] := by
        apply looksBack _ _ _ _ _ finishFits
        rw [← List.append_assoc]
        exact getLast?_any_append_mark outside passed _
      exact ⟨start, kept, passed, finish, rfl, List.append_nil _, startKept, finishKept,
        accepted.2.1, accepted.1.1, accepted.2.2⟩
  · exact absurd nothing (by simp)

end Ends

theorem occursIn_of_stretch {start kept passed finish : List Char}
    (startFits : (inOrder opening).Fits [] start kept)
    (finishFits : (inOrder ending).Fits passed finish [])
    (allowed : ∀ letter ∈ kept ++ mark :: (between ++ mark :: passed), accepts letter = true) :
    (inOrder (opening ++ many (one accepts) :: ending)).occursIn
      (start ++ kept ++ mark :: (between ++ mark :: (passed ++ finish))) = true := by
  have startWidened : (inOrder opening).Fits [] start
      ((kept ++ mark :: (between ++ mark :: passed)) ++ finish ++ []) := by
    apply looksAhead _ _ _ _ _ startFits
    simp only [List.append_assoc, List.cons_append]
    exact (head?_any_append_mark outside kept _).symm
  have stretchFits : (many (one accepts)).Fits ([] ++ start)
      (kept ++ mark :: (between ++ mark :: passed)) (finish ++ []) :=
    (Spells.many_one accepts).fits_iff.mpr allowed
  have finishWidened : (inOrder ending).Fits
      (([] ++ start) ++ (kept ++ mark :: (between ++ mark :: passed))) finish [] := by
    apply looksBack _ _ _ _ _ finishFits
    have shown := getLast?_any_append_mark outside passed (start ++ (kept ++ mark :: between))
    simpa using shown.symm
  have further := (fits_inOrder_cons ending).mpr ⟨_, finish, rfl, stretchFits, finishWidened⟩
  have whole := (fits_inOrder_append opening _).mpr ⟨start, _, rfl, startWidened, further⟩
  exact occursIn_iff_fits.mpr ⟨[], _, [], by simp, whole⟩

end Stretch

end Pattern

end ScriptLint.Text
