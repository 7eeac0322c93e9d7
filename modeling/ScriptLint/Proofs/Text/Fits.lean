import ScriptLint.Proofs.Text.Spelling

/-!
# Patterns between two parts of a text

What a pattern describes may depend on what stands around it, because of the conditions on the
start, the end and the edges of words. A pattern fits between two parts of a text if it runs from
the place behind the first to the place before the second. What fits is computed form by form, and a
pattern occurs in a text exactly if the text has a part that it fits.
-/

namespace ScriptLint.Text

/-- The place between two parts of a text. -/
def Place.between (before after : List Char) : Place :=
  ⟨before.getLast?, byteLength before, after⟩

namespace Place

variable {before run after : List Char}

theorem leads_between :
    (between before (run ++ after)).Leads run (between (before ++ run) after) where
  rest_eq := rfl
  position_eq := byteLength_append before run
  before_eq := by
    simp only [between]
    rw [List.getLast?_append]

theorem eq_between {stop : Place} (leads : (between before (run ++ after)).Leads run stop) :
    stop = between (before ++ run) after :=
  leads.eq_of_position_eq leads_between (leads.position_eq.trans leads_between.position_eq.symm)

end Place

namespace Pattern

variable {pattern first second : Pattern} {before run after letters : List Char}

/-- The pattern describes the characters between the two parts of a text. -/
def Fits (pattern : Pattern) (before run after : List Char) : Prop :=
  ∃ groups others,
    Runs pattern ⟨.between before (run ++ after), groups⟩ ⟨.between (before ++ run) after, others⟩

/-- A run does not depend on the groups that were recorded before it. -/
theorem Runs.exists_regrouped {reached next : Reached} (runs : Runs pattern reached next)
    (groups : List (Nat × Span)) :
    ∃ others, Runs pattern ⟨reached.place, groups⟩ ⟨next.place, others⟩ := by
  induction runs generalizing groups with
  | empty => exact ⟨groups, .empty _⟩
  | one follows accepted => exact ⟨groups, @Runs.one _ ⟨_, groups⟩ _ _ follows accepted⟩
  | sequence _ _ firstHypothesis secondHypothesis =>
      obtain ⟨middle, firstRuns⟩ := firstHypothesis groups
      obtain ⟨others, secondRuns⟩ := secondHypothesis middle
      exact ⟨others, .sequence firstRuns secondRuns⟩
  | preferred _ inductionHypothesis =>
      obtain ⟨others, runs⟩ := inductionHypothesis groups
      exact ⟨others, .preferred runs⟩
  | other _ inductionHypothesis =>
      obtain ⟨others, runs⟩ := inductionHypothesis groups
      exact ⟨others, .other runs⟩
  | manyNone body => exact ⟨groups, .manyNone body _⟩
  | manyMore _ _ bodyHypothesis restHypothesis =>
      obtain ⟨middle, bodyRuns⟩ := bodyHypothesis groups
      obtain ⟨others, restRuns⟩ := restHypothesis middle
      exact ⟨others, .manyMore bodyRuns restRuns⟩
  | fewNone body => exact ⟨groups, .fewNone body _⟩
  | fewMore _ _ bodyHypothesis restHypothesis =>
      obtain ⟨middle, bodyRuns⟩ := bodyHypothesis groups
      obtain ⟨others, restRuns⟩ := restHypothesis middle
      exact ⟨others, .fewMore bodyRuns restRuns⟩
  | group _ inductionHypothesis =>
      obtain ⟨others, runs⟩ := inductionHypothesis groups
      exact ⟨_, @Runs.group _ _ ⟨_, groups⟩ ⟨_, others⟩ runs⟩
  | atStart isFirst => exact ⟨groups, .atStart isFirst⟩
  | atEnd isLast => exact ⟨groups, .atEnd isLast⟩
  | atWordEdge isEdge => exact ⟨groups, .atWordEdge isEdge⟩

/-- A run between two places of a text fits between what is in front of them and behind them. -/
theorem Runs.exists_fits {start stop : Reached} (inText : start.place.IsIn letters)
    (runs : Runs pattern start stop) :
    ∃ before run after, letters = before ++ run ++ after ∧
      start.place.position = byteLength before ∧ start.place.Leads run stop.place ∧
      pattern.Fits before run after := by
  obtain ⟨before, leads⟩ := inText
  obtain ⟨run, further, _⟩ := runs.exists_leads
  have lettersEq : letters = before ++ (run ++ stop.place.rest) := by
    rw [← further.rest_eq]
    exact leads.rest_eq
  have startEq : start.place = .between before (run ++ stop.place.rest) := by
    have fromStart : (Place.between [] (before ++ (run ++ stop.place.rest))).Leads before
        start.place := by
      rw [← lettersEq]
      exact leads
    exact Place.eq_between fromStart
  have stopEq : stop.place = .between (before ++ run) stop.place.rest := by
    have fromStart := further
    rw [startEq] at fromStart
    exact Place.eq_between fromStart
  refine ⟨before, run, stop.place.rest, by rw [lettersEq, List.append_assoc],
    congrArg Place.position startEq, further, start.groups, stop.groups, ?_⟩
  rw [← startEq, ← stopEq]
  exact runs

theorem IsMatch.exists_fits {found : Match} (isMatch : IsMatch pattern letters found) :
    ∃ before after, letters = before ++ found.whole.letters ++ after ∧
      found.whole.start = byteLength before ∧ pattern.Fits before found.whole.letters after := by
  obtain ⟨start, stop, inText, _, runs, foundEq⟩ := isMatch
  obtain ⟨before, run, after, lettersEq, startEq, leads, fits⟩ := runs.exists_fits inText
  rw [foundEq, leads.spanTo_eq]
  exact ⟨before, after, lettersEq, startEq, fits⟩

/-- A pattern occurs in a text exactly if it fits a part of the text. -/
theorem occursIn_iff_fits :
    pattern.occursIn letters = true ↔
      ∃ before run after, letters = before ++ run ++ after ∧ pattern.Fits before run after := by
  rw [occursIn_iff]
  constructor
  · rintro ⟨start, stop, inText, runs⟩
    obtain ⟨before, run, after, lettersEq, _, _, fits⟩ := runs.exists_fits inText
    exact ⟨before, run, after, lettersEq, fits⟩
  · rintro ⟨before, run, after, rfl, groups, others, runs⟩
    refine ⟨_, _, ⟨before, ?_⟩, runs⟩
    have leads : (Place.between [] (before ++ (run ++ after))).Leads before
        (.between before (run ++ after)) := Place.leads_between
    rw [List.append_assoc]
    exact leads

/-! ## What fits -/

theorem fits_sequence :
    (sequence first second).Fits before run after ↔
      ∃ front back, run = front ++ back ∧ first.Fits before front (back ++ after) ∧
        second.Fits (before ++ front) back after := by
  constructor
  · rintro ⟨groups, others, runs⟩
    cases runs with
    | @sequence _ _ _ middle _ firstRuns secondRuns =>
        obtain ⟨front, leadsFront, _⟩ := firstRuns.exists_leads
        obtain ⟨back, leadsBack, _⟩ := secondRuns.exists_leads
        have whole : (Place.between before (run ++ after)).Leads (front ++ back)
            (.between (before ++ run) after) := leadsFront.trans leadsBack
        have runEq : run = front ++ back := List.append_cancel_right whole.rest_eq
        subst runEq
        have middleEq : middle.place = .between (before ++ front) (back ++ after) := by
          rw [List.append_assoc] at leadsFront
          exact Place.eq_between leadsFront
        refine ⟨front, back, rfl, ⟨groups, middle.groups, ?_⟩, ⟨middle.groups, others, ?_⟩⟩
        · rw [← middleEq, ← List.append_assoc]
          exact firstRuns
        · rw [← middleEq, List.append_assoc]
          exact secondRuns
  · rintro ⟨front, back, rfl, ⟨groups, middle, firstRuns⟩, secondFits⟩
    -- the second run goes on with the groups of the first
    obtain ⟨_, _, secondRuns⟩ := secondFits
    obtain ⟨others, further⟩ := secondRuns.exists_regrouped middle
    refine ⟨groups, others, ?_⟩
    rw [List.append_assoc, ← List.append_assoc before]
    exact .sequence firstRuns further

theorem fits_choice :
    (choice first second).Fits before run after ↔
      first.Fits before run after ∨ second.Fits before run after := by
  constructor
  · rintro ⟨groups, others, runs⟩
    cases runs with
    | preferred runs => exact Or.inl ⟨groups, others, runs⟩
    | other runs => exact Or.inr ⟨groups, others, runs⟩
  · rintro (⟨groups, others, runs⟩ | ⟨groups, others, runs⟩)
    · exact ⟨groups, others, .preferred runs⟩
    · exact ⟨groups, others, .other runs⟩

theorem fits_group {number : Nat} :
    (group number pattern).Fits before run after ↔ pattern.Fits before run after := by
  constructor
  · rintro ⟨groups, others, runs⟩
    generalize stopEq : Reached.mk (.between (before ++ run) after) others = stop at runs
    cases runs with
    | @group _ _ _ next runs =>
        have placeEq : Place.between (before ++ run) after = next.place :=
          congrArg Reached.place stopEq
        exact ⟨groups, next.groups, placeEq ▸ runs⟩
  · rintro ⟨groups, others, runs⟩
    exact ⟨groups, _, .group runs⟩

theorem Spells.fits_iff {words : List Char → Prop} (spells : pattern.Spells words) :
    pattern.Fits before run after ↔ words run := by
  constructor
  · rintro ⟨groups, others, runs⟩
    obtain ⟨_, word, isWord, leads⟩ := (spells _ _).mp runs
    have runEq : run = word := List.append_cancel_right leads.rest_eq
    exact runEq ▸ isWord
  · intro isWord
    exact ⟨[], [], (spells _ _).mpr ⟨rfl, run, isWord, Place.leads_between⟩⟩

/-- A condition describes no character. -/
theorem Fits.eq_nil (fits : pattern.Fits before run after) (condition : pattern.IsCondition) :
    run = [] := by
  obtain ⟨groups, others, runs⟩ := fits
  have stays := congrArg Reached.place (runs.eq_of_isCondition condition)
  have restEq : after = run ++ after := congrArg Place.rest stays
  exact List.append_left_eq_self.mp restEq.symm

theorem Runs.position_eq_zero {reached next : Reached} (runs : Runs Pattern.atStart reached next) :
    reached.place.position = 0 := by
  cases runs with
  | atStart isFirst => exact isFirst

theorem Runs.rest_eq_nil {reached next : Reached} (runs : Runs Pattern.atEnd reached next) :
    reached.place.rest = [] := by
  cases runs with
  | atEnd isLast => exact isLast

theorem Runs.isWordEdge {reached next : Reached} (runs : Runs Pattern.atWordEdge reached next) :
    reached.place.isWordEdge = true := by
  cases runs with
  | atWordEdge isEdge => exact isEdge

theorem fits_atStart : atStart.Fits before run after ↔ run = [] ∧ before = [] := by
  constructor
  · intro fits
    have noRun := fits.eq_nil trivial
    obtain ⟨groups, others, runs⟩ := fits
    have isFirst : byteLength before = 0 := runs.position_eq_zero
    have short := length_le_byteLength before
    exact ⟨noRun, List.length_eq_zero_iff.mp (by omega)⟩
  · rintro ⟨rfl, rfl⟩
    exact ⟨[], [], .atStart rfl⟩

theorem fits_atEnd : atEnd.Fits before run after ↔ run = [] ∧ after = [] := by
  constructor
  · intro fits
    have noRun := fits.eq_nil trivial
    obtain ⟨groups, others, runs⟩ := fits
    have isLast : run ++ after = [] := runs.rest_eq_nil
    exact ⟨noRun, (List.append_eq_nil_iff.mp isLast).2⟩
  · rintro ⟨rfl, rfl⟩
    refine ⟨[], [], ?_⟩
    rw [List.append_nil, List.append_nil]
    exact .atEnd rfl

theorem fits_atWordEdge :
    atWordEdge.Fits before run after ↔
      run = [] ∧ before.getLast?.any isWord ≠ after.head?.any isWord := by
  constructor
  · intro fits
    have noRun := fits.eq_nil trivial
    obtain ⟨groups, others, runs⟩ := fits
    have isEdge : (before.getLast?.any isWord != (run ++ after).head?.any isWord) = true :=
      runs.isWordEdge
    rw [noRun, List.nil_append, bne_iff_ne] at isEdge
    exact ⟨noRun, isEdge⟩
  · rintro ⟨rfl, isEdge⟩
    refine ⟨[], [], ?_⟩
    rw [List.append_nil]
    exact .atWordEdge (bne_iff_ne.mpr isEdge)

/-- Whatever fits consists of characters that the pattern accepts. -/
theorem Fits.only (fits : pattern.Fits before run after) {test : Char → Prop}
    (accepts : pattern.Only test) : ∀ letter ∈ run, test letter := by
  obtain ⟨groups, others, runs⟩ := fits
  obtain ⟨passed, leads, kinds⟩ := runs.exists_leads
  have runEq : run = passed := List.append_cancel_right leads.rest_eq
  exact runEq ▸ kinds test accepts

/-! ## Combinations -/

theorem fits_empty : empty.Fits before run after ↔ run = [] := Spells.empty.fits_iff

theorem fits_optional :
    (optional pattern).Fits before run after ↔ pattern.Fits before run after ∨ run = [] := by
  rw [optional, fits_choice, fits_empty]

theorem fits_foldl {patterns : List Pattern} :
    (patterns.foldl sequence pattern).Fits before run after ↔
      ∃ front back, run = front ++ back ∧ pattern.Fits before front (back ++ after) ∧
        (inOrder patterns).Fits (before ++ front) back after := by
  unfold inOrder
  induction patterns generalizing pattern before run with
  | nil => simp [fits_empty]
  | cons second others inductionHypothesis =>
      rw [List.foldl_cons, List.foldl_cons, inductionHypothesis]
      constructor
      · rintro ⟨_, back, rfl, bothFit, restFits⟩
        obtain ⟨front, middle, rfl, firstFits, secondFits⟩ := fits_sequence.mp bothFit
        refine ⟨front, middle ++ back, by simp, by simpa using firstFits, ?_⟩
        rw [inductionHypothesis]
        refine ⟨middle, back, rfl, ?_, by simpa using restFits⟩
        exact fits_sequence.mpr ⟨[], middle, rfl, fits_empty.mpr rfl, by simpa using secondFits⟩
      · rintro ⟨front, _, rfl, firstFits, restFit⟩
        obtain ⟨_, back, rfl, bothFit, restFits⟩ := inductionHypothesis.mp restFit
        obtain ⟨nothing, middle, rfl, isEmpty, secondFits⟩ := fits_sequence.mp bothFit
        have isNothing : nothing = [] := fits_empty.mp isEmpty
        subst isNothing
        refine ⟨front ++ middle, back, by simp, ?_, by simpa using restFits⟩
        exact fits_sequence.mpr
          ⟨front, middle, rfl, by simpa using firstFits, by simpa using secondFits⟩

theorem fits_inOrder_nil : (inOrder []).Fits before run after ↔ run = [] := fits_empty

theorem fits_inOrder_cons (patterns : List Pattern) :
    (inOrder (pattern :: patterns)).Fits before run after ↔
      ∃ front back, run = front ++ back ∧ pattern.Fits before front (back ++ after) ∧
        (inOrder patterns).Fits (before ++ front) back after := by
  rw [inOrder, List.foldl_cons, fits_foldl]
  constructor
  · rintro ⟨front, back, rfl, bothFit, restFits⟩
    obtain ⟨nothing, front, rfl, isEmpty, fits⟩ := fits_sequence.mp bothFit
    have isNothing : nothing = [] := fits_empty.mp isEmpty
    subst isNothing
    exact ⟨front, back, rfl, by simpa using fits, by simpa using restFits⟩
  · rintro ⟨front, back, rfl, fits, restFits⟩
    refine ⟨front, back, rfl, ?_, restFits⟩
    exact fits_sequence.mpr ⟨[], front, rfl, fits_empty.mpr rfl, by simpa using fits⟩

theorem fits_literal {text : String} :
    (literal text).Fits before run after ↔ run = text.toList :=
  (Spells.literal text).fits_iff

theorem fits_spaces :
    spaces.Fits before run after ↔ ∀ letter ∈ run, isSpace letter = true :=
  (Spells.many_one isSpace).fits_iff

theorem fits_gap :
    gap.Fits before run after ↔ run ≠ [] ∧ ∀ letter ∈ run, isSpace letter = true :=
  (Spells.repeated_one isSpace).fits_iff

theorem fits_identifier :
    identifier.Fits before run after ↔ run ≠ [] ∧ ∀ letter ∈ run, isName letter = true :=
  (Spells.repeated_one isName).fits_iff

theorem fits_firstOf {patterns : List Pattern} :
    (firstOf patterns).Fits before run after ↔
      ∃ pattern ∈ patterns, pattern.Fits before run after := by
  induction patterns with
  | nil =>
      rw [firstOf, (Spells.one fun _ => false).fits_iff]
      simp
  | cons first others inductionHypothesis =>
      cases others with
      | nil => simp [firstOf]
      | cons second others =>
          rw [firstOf, fits_choice, inductionHypothesis]
          · simp
          · simp

theorem fits_wordOf {words : List String} :
    (wordOf words).Fits before run after ↔ ∃ word ∈ words, run = word.toList := by
  rw [wordOf, fits_firstOf]
  simp [fits_literal]

/-! ## What combinations accept -/

section Only

variable {test : Char → Prop} {patterns : List Pattern}

theorem only_inOrder (each : ∀ pattern ∈ patterns, pattern.Only test) :
    (inOrder patterns).Only test := by
  have folded (first : Pattern) (accepts : first.Only test) :
      (patterns.foldl sequence first).Only test := by
    induction patterns generalizing first with
    | nil => exact accepts
    | cons second others inductionHypothesis =>
        rw [List.forall_mem_cons] at each
        exact inductionHypothesis each.2 (sequence first second) ⟨accepts, each.1⟩
  exact folded empty trivial

theorem only_firstOf (each : ∀ pattern ∈ patterns, pattern.Only test) :
    (firstOf patterns).Only test := by
  fun_induction firstOf patterns with
  | case1 => exact nofun
  | case2 pattern => exact each pattern List.mem_cons_self
  | case3 pattern others _ inductionHypothesis =>
      rw [List.forall_mem_cons] at each
      exact ⟨each.1, inductionHypothesis each.2⟩

theorem only_literal {text : String} (each : ∀ letter ∈ text.toList, test letter) :
    (literal text).Only test := by
  apply only_inOrder
  intro pattern member
  obtain ⟨letter, letterMember, rfl⟩ := List.mem_map.mp member
  intro found same
  exact beq_iff_eq.mp same ▸ each letter letterMember

theorem only_wordOf {words : List String}
    (each : ∀ word ∈ words, ∀ letter ∈ word.toList, test letter) : (wordOf words).Only test := by
  apply only_firstOf
  intro pattern member
  obtain ⟨word, wordMember, rfl⟩ := List.mem_map.mp member
  exact only_literal (each word wordMember)

theorem only_optional (accepts : pattern.Only test) : (optional pattern).Only test :=
  ⟨accepts, trivial⟩

end Only

end Pattern

end ScriptLint.Text
