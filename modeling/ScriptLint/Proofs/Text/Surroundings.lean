import ScriptLint.Proofs.Text.Leftmost

/-!
# What stands around a recorded run

A pattern that consists of parts one after the other runs them one after the other, so a span that
one part records stands behind what the earlier parts describe and in front of what the later ones
do. If the last part records as many characters of a class as it can, a character outside the class
follows.
-/

namespace ScriptLint.Text.Pattern

/-! ## The ends of a run -/

/-- Every run of the pattern passes a character. -/
def Moves : Pattern → Prop
  | one _ => True
  | sequence first second => first.Moves ∨ second.Moves
  | choice first second => first.Moves ∧ second.Moves
  | group _ body => body.Moves
  | _ => False

/-- A run of the pattern that passes a character begins with one of the class. -/
def BeginsIn (test : Char → Prop) : Pattern → Prop
  | one accepts => ∀ letter, accepts letter = true → test letter
  | sequence first second => first.BeginsIn test ∧ (first.Moves ∨ second.BeginsIn test)
  | choice first second => first.BeginsIn test ∧ second.BeginsIn test
  | many body | few body | group _ body => body.BeginsIn test
  | empty | atStart | atEnd | atWordEdge => True

/-- A run of the pattern that passes a character ends with one of the class. -/
def FinishesIn (test : Char → Prop) : Pattern → Prop
  | one accepts => ∀ letter, accepts letter = true → test letter
  | sequence first second => second.FinishesIn test ∧ (second.Moves ∨ first.FinishesIn test)
  | choice first second => first.FinishesIn test ∧ second.FinishesIn test
  | many body | few body | group _ body => body.FinishesIn test
  | empty | atStart | atEnd | atWordEdge => True

variable {pattern first second body : Pattern} {patterns leading trailing : List Pattern}
  {reached next start stop : Reached} {test : Char → Prop}
  {before run after letters : List Char} {number : Nat} {span : Span} {found : Match}

/-- What the ends of a run are. -/
structure HasEnds (pattern : Pattern) (run : List Char) : Prop where
  ne_nil : pattern.Moves → run ≠ []
  head : ∀ test, pattern.BeginsIn test → ∀ letter ∈ run.head?, test letter
  last : ∀ test, pattern.FinishesIn test → ∀ letter ∈ run.getLast?, test letter

namespace HasEnds

theorem nil (stays : ¬ pattern.Moves) : pattern.HasEnds [] :=
  ⟨fun moves => absurd moves stays, nofun, nofun⟩

theorem append {others : List Char}
    (hasEnds : first.HasEnds run) (hasEndsOthers : second.HasEnds others) :
    (sequence first second).HasEnds (run ++ others) where
  ne_nil := by
    rintro (moves | moves)
    · exact List.append_ne_nil_of_left_ne_nil (hasEnds.ne_nil moves) others
    · exact List.append_ne_nil_of_right_ne_nil run (hasEndsOthers.ne_nil moves)
  head := by
    rintro test ⟨begins, moves | beginsOther⟩ letter member
    · rw [List.head?_append_of_ne_nil _ (hasEnds.ne_nil moves)] at member
      exact hasEnds.head test begins letter member
    · rw [List.head?_append, Option.mem_def, Option.or_eq_some_iff] at member
      rcases member with inFirst | ⟨-, inSecond⟩
      · exact hasEnds.head test begins letter inFirst
      · exact hasEndsOthers.head test beginsOther letter inSecond
  last := by
    rintro test ⟨finishes, moves | finishesOther⟩ letter member
    · rw [List.getLast?_append_of_ne_nil _ (hasEndsOthers.ne_nil moves)] at member
      exact hasEndsOthers.last test finishes letter member
    · rw [List.getLast?_append, Option.mem_def, Option.or_eq_some_iff] at member
      rcases member with inSecond | ⟨-, inFirst⟩
      · exact hasEndsOthers.last test finishes letter inSecond
      · exact hasEnds.last test finishesOther letter inFirst

end HasEnds

theorem Runs.exists_hasEnds (runs : Runs pattern reached next) :
    ∃ run, reached.place.Leads run next.place ∧ pattern.HasEnds run := by
  induction runs with
  | empty | manyNone | fewNone | atStart | atEnd | atWordEdge => exact ⟨[], .refl _, .nil id⟩
  | @one accepts reached letter rest follows accepted =>
      refine ⟨[letter], .after follows, fun _ => List.cons_ne_nil letter [], ?_, ?_⟩
      · rintro test accepts letter ⟨⟩
        exact accepts letter accepted
      · rintro test accepts letter ⟨⟩
        exact accepts letter accepted
  | sequence _ _ firstHypothesis secondHypothesis =>
      obtain ⟨run, leads, hasEnds⟩ := firstHypothesis
      obtain ⟨others, further, hasEndsOthers⟩ := secondHypothesis
      exact ⟨run ++ others, leads.trans further, hasEnds.append hasEndsOthers⟩
  | preferred _ inductionHypothesis =>
      obtain ⟨run, leads, hasEnds⟩ := inductionHypothesis
      exact ⟨run, leads, fun moves => hasEnds.ne_nil moves.1,
        fun test begins => hasEnds.head test begins.1,
        fun test finishes => hasEnds.last test finishes.1⟩
  | other _ inductionHypothesis =>
      obtain ⟨run, leads, hasEnds⟩ := inductionHypothesis
      exact ⟨run, leads, fun moves => hasEnds.ne_nil moves.2,
        fun test begins => hasEnds.head test begins.2,
        fun test finishes => hasEnds.last test finishes.2⟩
  | manyMore _ _ bodyHypothesis restHypothesis | fewMore _ _ bodyHypothesis restHypothesis =>
      obtain ⟨run, leads, hasEnds⟩ := bodyHypothesis
      obtain ⟨others, further, hasEndsOthers⟩ := restHypothesis
      -- both parts are runs of the same class, whichever of them is not empty
      refine ⟨run ++ others, leads.trans further, nofun, ?_, ?_⟩
      · intro test begins letter member
        rw [List.head?_append, Option.mem_def, Option.or_eq_some_iff] at member
        rcases member with inFirst | ⟨-, inSecond⟩
        · exact hasEnds.head test begins letter inFirst
        · exact hasEndsOthers.head test begins letter inSecond
      · intro test finishes letter member
        rw [List.getLast?_append, Option.mem_def, Option.or_eq_some_iff] at member
        rcases member with inSecond | ⟨-, inFirst⟩
        · exact hasEndsOthers.last test finishes letter inSecond
        · exact hasEnds.last test finishes letter inFirst
  | group _ inductionHypothesis =>
      obtain ⟨run, leads, hasEnds⟩ := inductionHypothesis
      exact ⟨run, leads, hasEnds.ne_nil, hasEnds.head, hasEnds.last⟩

theorem Fits.hasEnds (fits : pattern.Fits before run after) : pattern.HasEnds run := by
  obtain ⟨groups, others, runs⟩ := fits
  obtain ⟨passed, leads, hasEnds⟩ := runs.exists_hasEnds
  have runEq : run = passed := List.append_cancel_right leads.rest_eq
  exact runEq ▸ hasEnds

section InOrder

theorem moves_inOrder (member : pattern ∈ patterns) (moves : pattern.Moves) :
    (inOrder patterns).Moves := by
  obtain ⟨earlier, later, rfl⟩ := List.append_of_mem member
  rw [inOrder, List.foldl_append, List.foldl_cons]
  induction later using List.reverseRecOn with
  | nil => exact .inr moves
  | append_singleton later last inductionHypothesis =>
      rw [List.foldl_append]
      exact .inl (inductionHypothesis (by simp))

theorem finishesIn_foldl (finishes : first.FinishesIn test)
    (each : ∀ pattern ∈ patterns, pattern.FinishesIn test) :
    (patterns.foldl sequence first).FinishesIn test := by
  induction patterns generalizing first with
  | nil => exact finishes
  | cons second others inductionHypothesis =>
      rw [List.forall_mem_cons] at each
      have finishesBoth : (sequence first second).FinishesIn test := ⟨each.1, .inr finishes⟩
      exact inductionHypothesis finishesBoth each.2

theorem finishesIn_inOrder (each : ∀ pattern ∈ patterns, pattern.FinishesIn test) :
    (inOrder patterns).FinishesIn test :=
  finishesIn_foldl trivial each

/-- A last part that passes a character decides how a run ends. -/
theorem finishesIn_inOrder_concat (patterns : List Pattern) (finishes : pattern.FinishesIn test)
    (moves : pattern.Moves) : (inOrder (patterns ++ [pattern])).FinishesIn test := by
  rw [inOrder, List.foldl_append]
  exact ⟨finishes, .inl moves⟩

theorem beginsIn_foldl (begins : first.BeginsIn test)
    (each : first.Moves ∨ ∀ pattern ∈ patterns, pattern.BeginsIn test) :
    (patterns.foldl sequence first).BeginsIn test := by
  induction patterns generalizing first with
  | nil => exact begins
  | cons second others inductionHypothesis =>
      rcases each with moves | each
      · exact inductionHypothesis ⟨begins, .inl moves⟩ (.inl (.inl moves))
      · rw [List.forall_mem_cons] at each
        exact inductionHypothesis ⟨begins, .inr each.1⟩ (.inr each.2)

theorem beginsIn_inOrder (each : ∀ pattern ∈ patterns, pattern.BeginsIn test) :
    (inOrder patterns).BeginsIn test :=
  beginsIn_foldl trivial (.inr each)

/-- A first part that passes a character decides how a run begins. -/
theorem beginsIn_inOrder_cons (patterns : List Pattern) (begins : pattern.BeginsIn test)
    (moves : pattern.Moves) : (inOrder (pattern :: patterns)).BeginsIn test := by
  have beginsFirst : (sequence empty pattern).BeginsIn test := ⟨trivial, .inr begins⟩
  rw [inOrder, List.foldl_cons]
  exact beginsIn_foldl beginsFirst (.inl (.inr moves))

end InOrder

/-! ## Parts one after the other -/

theorem Runs.exists_foldl (runs : Runs (patterns.foldl Pattern.sequence pattern) start stop) :
    ∃ middle, Runs pattern start middle ∧ Runs (inOrder patterns) middle stop := by
  induction patterns using List.reverseRecOn generalizing stop with
  | nil => exact ⟨stop, runs, .empty stop⟩
  | append_singleton patterns last inductionHypothesis =>
      rw [List.foldl_append] at runs
      cases runs with
      | sequence earlier final =>
          obtain ⟨middle, firstRuns, otherRuns⟩ := inductionHypothesis earlier
          refine ⟨middle, firstRuns, ?_⟩
          rw [inOrder, List.foldl_append]
          exact .sequence otherRuns final

theorem Runs.exists_inOrder_append (runs : Runs (inOrder (leading ++ trailing)) start stop) :
    ∃ middle, Runs (inOrder leading) start middle ∧ Runs (inOrder trailing) middle stop := by
  rw [inOrder, List.foldl_append] at runs
  exact runs.exists_foldl

theorem Runs.exists_inOrder_cons (runs : Runs (inOrder (pattern :: patterns)) start stop) :
    ∃ middle, Runs pattern start middle ∧ Runs (inOrder patterns) middle stop := by
  rw [inOrder, List.foldl_cons] at runs
  obtain ⟨middle, bothRuns, otherRuns⟩ := runs.exists_foldl
  cases bothRuns with
  | sequence nothing firstRuns =>
      cases nothing
      exact ⟨middle, firstRuns, otherRuns⟩

theorem Place.eq_between_rest {place : Place} (leads : (Place.first letters).Leads before place) :
    place = .between before place.rest := by
  have lettersEq : letters = before ++ place.rest := leads.rest_eq
  have fromStart : (Place.between [] (before ++ place.rest)).Leads before place := by
    rw [← lettersEq]
    exact leads
  exact Place.eq_between fromStart

theorem Runs.fits (runs : Runs pattern start stop)
    (startEq : start.place = .between before (run ++ after))
    (stopEq : stop.place = .between (before ++ run) after) : pattern.Fits before run after := by
  refine ⟨start.groups, stop.groups, ?_⟩
  rw [← startEq, ← stopEq]
  exact runs

/-- If only one part records under a number, what it records stands between what the parts in front
of it and behind it describe. -/
theorem IsMatch.exists_around
    (isMatch : IsMatch (inOrder (leading ++ group number body :: trailing)) letters found)
    (bodiesEq : (inOrder (leading ++ group number body :: trailing)).bodies number = [body])
    (recorded : found.group? number = some span) :
    ∃ before front back after,
      letters = before ++ (front ++ (span.letters ++ (back ++ after))) ∧
      span.start = byteLength (before ++ front) ∧
      (inOrder leading).Fits before front (span.letters ++ (back ++ after)) ∧
      body.Fits (before ++ front) span.letters (back ++ after) ∧
      (inOrder trailing).Fits (before ++ front ++ span.letters) back after := by
  obtain ⟨start, stop, inText, noGroups, runs, rfl⟩ := isMatch
  obtain ⟨middle, leadingRuns, otherRuns⟩ := runs.exists_inOrder_append
  obtain ⟨next, groupRuns, trailingRuns⟩ := otherRuns.exists_inOrder_cons
  -- nothing but the part itself records under the number
  rw [bodies_inOrder, List.flatMap_append, List.flatMap_cons, bodies, if_pos rfl] at bodiesEq
  have lengths := congrArg List.length bodiesEq
  simp only [List.length_append, List.length_singleton] at lengths
  have noLeading : (inOrder leading).bodies number = [] := by
    rw [bodies_inOrder]
    exact List.eq_nil_of_length_eq_zero (by omega)
  have noBody : body.bodies number = [] := List.eq_nil_of_length_eq_zero (by omega)
  have noTrailing : (inOrder trailing).bodies number = [] := by
    rw [bodies_inOrder]
    exact List.eq_nil_of_length_eq_zero (by omega)
  have only : ∀ {pattern : Pattern} {reached next : Reached}, pattern.bodies number = [] →
      Runs pattern reached next → reached.place.IsIn letters →
        (number, span) ∈ next.groups → (number, span) ∈ reached.groups := by
    intro pattern reached next noBodies runs inText member
    rcases runs.of_mem_groups inText member with earlier | ⟨body, isBody, -⟩
    · exact earlier
    · rw [noBodies] at isBody
      exact absurd isBody List.not_mem_nil
  have member := mem_groups_of_group? recorded
  cases groupRuns with
  | @group _ _ _ inner bodyRuns =>
      obtain ⟨before, leadsBefore⟩ := inText
      obtain ⟨front, leadsFront, -⟩ := leadingRuns.exists_leads
      obtain ⟨name, leadsName, -⟩ := bodyRuns.exists_leads
      obtain ⟨back, leadsBack, -⟩ := trailingRuns.exists_leads
      have toMiddle := leadsBefore.trans leadsFront
      have toInner := toMiddle.trans leadsName
      have toStop := toInner.trans leadsBack
      have isSpan : span = middle.place.spanTo inner.place := by
        rcases List.mem_cons.mp (only noTrailing trailingRuns ⟨_, toInner⟩ member) with same | earlier
        · exact (Prod.mk.inj same).2
        · have inMiddle := only noBody bodyRuns ⟨_, toMiddle⟩ earlier
          have inStart := only noLeading leadingRuns ⟨_, leadsBefore⟩ inMiddle
          rw [noGroups] at inStart
          exact absurd inStart List.not_mem_nil
      have spanEq := isSpan.trans leadsName.spanTo_eq
      have innerEq := Place.eq_between_rest toInner
      have middleEq := Place.eq_between_rest toMiddle
      have startEq := Place.eq_between_rest leadsBefore
      rw [leadsBack.rest_eq] at innerEq
      rw [leadsName.rest_eq, leadsBack.rest_eq] at middleEq
      rw [leadsFront.rest_eq, leadsName.rest_eq, leadsBack.rest_eq] at startEq
      refine ⟨before, front, back, stop.place.rest, ?_, ?_, ?_, ?_, ?_⟩
      · have lettersEq : letters = before ++ start.place.rest := leadsBefore.rest_eq
        rw [lettersEq, startEq, spanEq]
        rfl
      · rw [spanEq, middleEq]
        rfl
      · rw [spanEq]
        exact leadingRuns.fits startEq middleEq
      · rw [spanEq]
        exact bodyRuns.fits middleEq innerEq
      · rw [spanEq]
        exact trailingRuns.fits innerEq (Place.eq_between_rest toStop)

/-! ## As many characters as possible -/

/-- The first end of all is the first end from one of the places. -/
theorem exists_of_head?_advance {step : Reached → List Reached} {origin : Nat}
    {starts : List Reached}
    (first : (Reached.advance step origin starts 0).head? = some next) :
    ∃ reached ∈ starts, (step reached).head? = some next := by
  have firstOfAll : (starts.flatMap step).head? = some next := by
    rw [Reached.advance_eq_keepNew] at first
    cases ends : starts.flatMap step with
    | nil =>
        rw [ends] at first
        cases first
    | cons here others =>
        rw [ends, Reached.keepNew] at first
        simp only [Nat.zero_testBit, Bool.false_eq_true, if_false] at first
        exact first
  rw [List.head?_flatMap] at firstOfAll
  exact List.exists_of_findSome?_eq_some firstOfAll

theorem endsClass_dropWhile (accepts : Char → Bool) (letters : List Char) :
    EndsClass accepts (letters.dropWhile accepts) := by
  induction letters with
  | nil => exact endsClass_nil
  | cons letter rest inductionHypothesis =>
      by_cases accepted : accepts letter = true
      · rw [List.dropWhile_cons_of_pos accepted]
        exact inductionHypothesis
      · rw [List.dropWhile_cons_of_neg accepted]
        exact endsClass_cons (Bool.eq_false_iff.mpr accepted) rest

/-- If the last part records as many characters of a class as possible, the class ends behind
them. -/
theorem exists_around_of_mem_searchAll {accepts : Char → Bool}
    (member : found ∈
      (inOrder (leading ++ [group number (repeated (one accepts))])).searchAll letters) :
    ∃ before front name after, letters = before ++ (front ++ (name ++ after)) ∧
      (inOrder leading).Fits before front (name ++ after) ∧
      name ≠ [] ∧ (∀ letter ∈ name, accepts letter = true) ∧ EndsClass accepts after ∧
      found.group? number = some (spanBehind (before ++ front) name) := by
  obtain ⟨before, rest, lettersEq, matched⟩ := matchAt?_of_mem_searchAll member
  have patternEq : inOrder (leading ++ [group number (repeated (one accepts))]) =
      sequence (inOrder leading) (group number (repeated (one accepts))) := by
    rw [inOrder, List.foldl_append]
    rfl
  rw [matchAt?, Option.map_eq_some_iff, patternEq, ends] at matched
  obtain ⟨stop, firstEnd, rfl⟩ := matched
  obtain ⟨middle, middleMember, first⟩ := exists_of_head?_advance firstEnd
  have leadingRuns := runs_of_mem_ends middleMember
  obtain ⟨front, leads, -⟩ := leadingRuns.exists_leads
  have restEq : rest = front ++ middle.place.rest := leads.rest_eq
  have middleEq : middle.place = .between (before ++ front) middle.place.rest := by
    rw [restEq] at leads
    exact Place.eq_between leads
  have cut : middle.place.rest = middle.place.rest.takeWhile accepts ++
      middle.place.rest.dropWhile accepts := List.takeWhile_append_dropWhile.symm
  have inside : ∀ letter ∈ middle.place.rest.takeWhile accepts, accepts letter = true :=
    fun letter => List.mem_takeWhile_imp
  have endsBehind := endsClass_dropWhile accepts middle.place.rest
  generalize middle.place.rest.takeWhile accepts = name at *
  generalize middle.place.rest.dropWhile accepts = after at *
  rw [cut] at middleEq restEq
  obtain ⟨place, groups⟩ := middle
  obtain rfl : place = _ := middleEq
  have nonempty : name ≠ [] := by
    rintro rfl
    have misses : (group number (repeated (one accepts))).Misses (before ++ front) after :=
      fun run behind shape fits =>
        misses_sequence (misses_one endsBehind) run behind shape (fits_group.mp fits)
    rw [List.nil_append, misses.ends_eq_nil] at first
    cases first
  have bounded : (name ++ after).length ≤ letters.length := by
    rw [lettersEq, restEq]
    simp only [List.length_append]
    omega
  have preferred : (group number (repeated (one accepts))).Prefers (before ++ front) name after
      [(number, spanBehind (before ++ front) name)] :=
    .group number (.repeated_one nonempty inside endsBehind)
  rw [preferred letters.length groups bounded] at first
  obtain rfl := Option.some.inj first
  refine ⟨before, front, name, after, by rw [lettersEq, restEq], ?_, nonempty, inside, endsBehind,
    ?_⟩
  · rw [restEq] at leadingRuns
    exact leadingRuns.fits rfl rfl
  · simp [Match.group?]

end ScriptLint.Text.Pattern
