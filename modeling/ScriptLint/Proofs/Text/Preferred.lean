import ScriptLint.Proofs.Text.Words

/-!
# The preferred match

A pattern may fit a part of a text in several ways, and the matcher takes the one that it prefers.
Form by form it is said here which one that is, as long as the matcher never has to come back on a
choice: the first ends of the parts are the first end of the whole. A search reports the preferred
match at its place, so if a pattern fits at one place of a text only, the matches of the text are
known.
-/

namespace ScriptLint.Text

namespace Reached

variable {step : Reached → List Reached} {origin : Nat}

/-- The first end of all comes from the first place to which the step is taken. -/
theorem head?_advance {starts : List Reached} {reached next : Reached}
    (first : starts.head? = some reached) (second : (step reached).head? = some next) :
    (advance step origin starts 0).head? = some next := by
  obtain ⟨others, rfl⟩ := List.head?_eq_some_iff.mp first
  obtain ⟨later, stepEq⟩ := List.head?_eq_some_iff.mp second
  rw [advance_eq_keepNew, List.flatMap_cons, stepEq, List.cons_append, keepNew]
  simp only [Nat.zero_testBit, Bool.false_eq_true, if_false]
  rfl

/-- Where a step leads nowhere, there is no repetition. -/
theorem repeatMany_eq_singleton {reached : Reached} (stops : step reached = []) (count : Nat) :
    repeatMany step count reached [] = [reached] := by
  cases count with
  | zero => rfl
  | succ count =>
      rw [repeatMany_succ, stops]
      rfl

end Reached

namespace Pattern

/-- No run of the pattern begins between the two parts of a text. -/
def Misses (pattern : Pattern) (before rest : List Char) : Prop :=
  ∀ run after, rest = run ++ after → ¬ pattern.Fits before run after

/-- Between the two parts of a text the matcher prefers the run of these characters, on which it
records the spans. -/
def Prefers (pattern : Pattern) (before run after : List Char) (spans : List (Nat × Span)) : Prop :=
  ∀ limit groups, (run ++ after).length ≤ limit →
    (ends limit pattern ⟨.between before (run ++ after), groups⟩).head? =
      some ⟨.between (before ++ run) after, spans ++ groups⟩

/-- The span of characters behind a part of a text. -/
def spanBehind (before run : List Char) : Span :=
  ⟨byteLength before, byteLength before + byteLength run, run⟩

variable {pattern first second : Pattern} {patterns : List Pattern} {accepts : Char → Bool}
  {before run further after rest : List Char} {spans others : List (Nat × Span)} {letter : Char}

theorem byteLength_concat (before : List Char) (letter : Char) :
    byteLength (before ++ [letter]) = byteLength before + letter.utf8Size := by
  rw [byteLength_append, byteLength_cons, byteLength_nil, Nat.add_zero]

/-! ## Places without a run -/

theorem Misses.ends_eq_nil (misses : pattern.Misses before rest) (limit : Nat)
    (groups : List (Nat × Span)) : ends limit pattern ⟨.between before rest, groups⟩ = [] := by
  rw [List.eq_nil_iff_forall_not_mem]
  intro next member
  have runs := runs_of_mem_ends member
  obtain ⟨run, leads, _⟩ := runs.exists_leads
  have restEq : rest = run ++ next.place.rest := leads.rest_eq
  have placeEq : next.place = .between (before ++ run) next.place.rest := by
    rw [restEq] at leads
    exact Place.eq_between leads
  refine misses run next.place.rest restEq ⟨groups, next.groups, ?_⟩
  rw [← restEq, ← placeEq]
  exact runs

theorem Misses.matchAt?_eq (misses : pattern.Misses before rest) (limit : Nat) :
    matchAt? pattern limit (.between before rest) = none := by
  rw [matchAt?, misses.ends_eq_nil]
  rfl

theorem misses_one (ends : EndsClass accepts rest) : (one accepts).Misses before rest := by
  rintro run after rfl fits
  obtain ⟨letter, rfl, accepted⟩ := (Spells.one accepts).fits_iff.mp fits
  have refused : accepts letter = false := ends
  rw [accepted] at refused
  cases refused

theorem misses_sequence (misses : first.Misses before rest) :
    (sequence first second).Misses before rest := by
  rintro run after rfl fits
  obtain ⟨front, back, rfl, firstFits, _⟩ := fits_sequence.mp fits
  exact misses front (back ++ after) (List.append_assoc front back after) firstFits

theorem misses_inOrder_cons (misses : pattern.Misses before rest) :
    (inOrder (pattern :: patterns)).Misses before rest := by
  rintro run after rfl fits
  obtain ⟨front, back, rfl, firstFits, _⟩ := (fits_inOrder_cons patterns).mp fits
  exact misses front (back ++ after) (List.append_assoc front back after) firstFits

theorem misses_literal {text : String} (other : ¬ text.toList <+: rest) :
    (literal text).Misses before rest := by
  rintro run after rfl fits
  rw [fits_literal.mp fits] at other
  exact other (List.prefix_append _ _)

/-- Behind white space a literal has to begin with the character that stands there. -/
theorem misses_behind_spaces (blanks : List Char) {lead : Pattern} {text : String} {mark : Char}
    (accepts : lead.Only fun letter => isSpace letter = true)
    (spelled : text.toList.head? = some mark) (visible : isSpace mark = false)
    (spaced : ∀ letter ∈ blanks, isSpace letter = true) (ends : EndsClass isSpace (letter :: rest))
    (other : letter ≠ mark) :
    (inOrder (lead :: literal text :: patterns)).Misses before (blanks ++ letter :: rest) := by
  intro run after shape fits
  simp only [fits_inOrder_cons, fits_literal] at fits
  obtain ⟨passed, _, rfl, leadFits, _, further, rfl, rfl, _⟩ := fits
  obtain ⟨others, textEq⟩ := List.head?_eq_some_iff.mp spelled
  rw [textEq, List.append_assoc, List.append_assoc, List.cons_append] at shape
  have same := eq_of_endsClass spaced ends (leadFits.only accepts) (endsClass_cons visible _) shape
  exact other (List.cons.inj same.2).1

/-! ## Preferred runs -/

theorem after_between (before : List Char) (letter : Char) (rest : List Char) :
    (Place.between before (letter :: rest)).after letter rest =
      .between (before ++ [letter]) rest :=
  Place.eq_between (.after rfl)

theorem ends_one (accepted : accepts letter = true) (limit : Nat) (groups : List (Nat × Span)) :
    ends limit (one accepts) ⟨.between before (letter :: rest), groups⟩ =
      [⟨.between (before ++ [letter]) rest, groups⟩] := by
  have restEq : (Place.between before (letter :: rest)).rest = letter :: rest := rfl
  rw [ends, restEq]
  simp only [accepted, if_true, after_between]

/-- Characters of a class are repeated up to the end of the class. -/
theorem head?_repeatMany (inside : ∀ letter ∈ run, accepts letter = true)
    (endsBehind : EndsClass accepts after) (limit : Nat) {count : Nat}
    (enough : run.length ≤ count) (groups : List (Nat × Span)) :
    (Reached.repeatMany (ends limit (one accepts)) count
      ⟨.between before (run ++ after), groups⟩ []).head? =
        some ⟨.between (before ++ run) after, groups⟩ := by
  induction run generalizing before count with
  | nil =>
      rw [List.nil_append, List.append_nil,
        Reached.repeatMany_eq_singleton ((misses_one endsBehind).ends_eq_nil limit groups)]
      rfl
  | cons letter rest inductionHypothesis =>
      rw [List.forall_mem_cons] at inside
      obtain ⟨count, rfl⟩ : ∃ fewer, count = fewer + 1 :=
        Nat.exists_eq_add_one.mpr (Nat.lt_of_lt_of_le (Nat.succ_pos _) enough)
      have later := @inductionHypothesis (before ++ [letter]) inside.2 count
        (Nat.le_of_succ_le_succ enough)
      have step : ends limit (one accepts) ⟨.between before (letter :: (rest ++ after)), groups⟩ =
          [⟨.between (before ++ [letter]) (rest ++ after), groups⟩] :=
        ends_one inside.1 limit groups
      have further : (Reached.mk (.between (before ++ [letter]) (rest ++ after)) groups).isBeyond
          ⟨.between before (letter :: (rest ++ after)), groups⟩ = true := by
        apply decide_eq_true
        change byteLength before < byteLength (before ++ [letter])
        rw [byteLength_concat]
        exact Nat.lt_add_of_pos_right letter.utf8Size_pos
      rw [List.cons_append, Reached.repeatMany_succ, step, List.filter_cons, if_pos further,
        List.filter_nil, List.flatMap_singleton, List.head?_append, later, List.append_assoc]
      rfl

namespace Prefers

theorem empty : Pattern.empty.Prefers before [] after [] := by
  intro limit groups _
  rw [ends, List.append_nil]
  rfl

theorem one (accepted : accepts letter = true) :
    (Pattern.one accepts).Prefers before [letter] after [] := by
  intro limit groups _
  exact congrArg List.head? (ends_one accepted limit groups)

theorem sequence (prefers : first.Prefers before run (further ++ after) spans)
    (next : second.Prefers (before ++ run) further after others) :
    (Pattern.sequence first second).Prefers before (run ++ further) after (others ++ spans) := by
  intro limit groups bounded
  rw [List.append_assoc] at bounded ⊢
  have shorter : (further ++ after).length ≤ limit := by
    rw [List.length_append] at bounded
    omega
  rw [← List.append_assoc before, List.append_assoc others]
  exact Reached.head?_advance (prefers limit groups bounded) (next limit (spans ++ groups) shorter)

theorem preferred (prefers : first.Prefers before run after spans) :
    (choice first second).Prefers before run after spans := by
  intro limit groups bounded
  rw [ends, List.head?_append, prefers limit groups bounded]
  rfl

theorem other (misses : first.Misses before (run ++ after))
    (prefers : second.Prefers before run after spans) :
    (choice first second).Prefers before run after spans := by
  intro limit groups bounded
  rw [ends, misses.ends_eq_nil]
  exact prefers limit groups bounded

theorem optional_none (misses : pattern.Misses before after) :
    (optional pattern).Prefers before [] after [] :=
  other misses empty

theorem many_none (misses : pattern.Misses before after) :
    (many pattern).Prefers before [] after [] := by
  intro limit groups _
  rw [List.append_nil, List.nil_append, ends,
    Reached.repeatMany_eq_singleton (misses.ends_eq_nil limit groups)]
  rfl

/-- One repetition, behind which there is no further one. -/
theorem many_single (prefers : pattern.Prefers before run after spans) (nonempty : run ≠ [])
    (misses : pattern.Misses (before ++ run) after) :
    (many pattern).Prefers before run after spans := by
  intro limit groups bounded
  have someRun : 0 < run.length := List.length_pos_of_ne_nil nonempty
  rw [List.length_append] at bounded
  obtain ⟨count, rfl⟩ : ∃ fewer, limit = fewer + 1 := Nat.exists_eq_add_one.mpr (by omega)
  have step := prefers (count + 1) groups (by rw [List.length_append]; exact bounded)
  obtain ⟨others, endsEq⟩ := List.head?_eq_some_iff.mp step
  have further : (Reached.mk (.between (before ++ run) after) (spans ++ groups)).isBeyond
      ⟨.between before (run ++ after), groups⟩ = true := by
    have longer := length_le_byteLength run
    apply decide_eq_true
    change byteLength before < byteLength (before ++ run)
    rw [byteLength_append]
    omega
  have stops := misses.ends_eq_nil (count + 1) (spans ++ groups)
  rw [ends, Reached.repeatMany_succ, endsEq, List.filter_cons, if_pos further, List.flatMap_cons,
    Reached.repeatMany_eq_singleton stops]
  rfl

theorem group (number : Nat) (prefers : pattern.Prefers before run after spans) :
    (Pattern.group number pattern).Prefers before run after
      ((number, spanBehind before run) :: spans) := by
  intro limit groups bounded
  rw [ends, List.head?_map, prefers limit groups bounded, Option.map_some,
    Place.leads_between.spanTo_eq]
  rfl

theorem atStart : Pattern.atStart.Prefers [] [] after [] :=
  fun _ _ _ => rfl

theorem atEnd : Pattern.atEnd.Prefers before [] [] [] := by
  intro limit groups _
  rw [ends, List.append_nil, List.append_nil]
  rfl

theorem atWordEdge (isEdge : before.getLast?.any isWord ≠ after.head?.any isWord) :
    Pattern.atWordEdge.Prefers before [] after [] := by
  intro limit groups _
  rw [ends, List.append_nil, List.nil_append]
  exact congrArg List.head? (if_pos (bne_iff_ne.mpr isEdge))

theorem many_one (inside : ∀ letter ∈ run, accepts letter = true)
    (endsBehind : EndsClass accepts after) :
    (many (Pattern.one accepts)).Prefers before run after [] := by
  intro limit groups bounded
  have enough : run.length ≤ limit := by
    rw [List.length_append] at bounded
    omega
  exact head?_repeatMany inside endsBehind limit enough groups

theorem repeated_one (nonempty : run ≠ []) (inside : ∀ letter ∈ run, accepts letter = true)
    (endsBehind : EndsClass accepts after) :
    (repeated (Pattern.one accepts)).Prefers before run after [] := by
  obtain ⟨letter, others, rfl⟩ := List.exists_cons_of_ne_nil nonempty
  rw [List.forall_mem_cons] at inside
  exact (one inside.1).sequence (many_one inside.2 endsBehind)

end Prefers

/-! ## Preferred runs one after the other -/

/-- The runs that the matcher prefers for patterns that stand one after the other. -/
inductive PrefersAll : List Pattern → List Char → List Char → List Char → List (Nat × Span) → Prop
  | nil {before after : List Char} : PrefersAll [] before [] after []
  | cons {pattern : Pattern} {patterns : List Pattern} {before run further after : List Char}
      {spans others : List (Nat × Span)} :
      pattern.Prefers before run (further ++ after) spans →
      PrefersAll patterns (before ++ run) further after others →
      PrefersAll (pattern :: patterns) before (run ++ further) after (others ++ spans)

namespace PrefersAll

/-- A part that records nothing. -/
theorem pass (prefers : pattern.Prefers before run (further ++ after) [])
    (all : PrefersAll patterns (before ++ run) further after others) :
    PrefersAll (pattern :: patterns) before (run ++ further) after others := by
  have whole := PrefersAll.cons prefers all
  rwa [List.append_nil] at whole

/-- A part that passes nothing. -/
theorem skip (prefers : pattern.Prefers before [] (run ++ after) [])
    (all : PrefersAll patterns before run after others) :
    PrefersAll (pattern :: patterns) before run after others := by
  apply pass prefers
  rw [List.append_nil]
  exact all

theorem last (prefers : pattern.Prefers before run after spans) :
    PrefersAll [pattern] before run after spans := by
  have whole := PrefersAll.cons prefers .nil
  rwa [List.append_nil] at whole

theorem foldl (prefers : pattern.Prefers before run (further ++ after) spans)
    (all : PrefersAll patterns (before ++ run) further after others) :
    (patterns.foldl sequence pattern).Prefers before (run ++ further) after (others ++ spans) := by
  induction patterns generalizing pattern run further spans others with
  | nil =>
      cases all
      rw [List.append_nil]
      exact prefers
  | cons second rest inductionHypothesis =>
      cases all with
      | @cons _ _ _ next further _ nextSpans others nextPrefers all =>
          rw [List.append_assoc] at prefers all
          rw [← List.append_assoc, List.append_assoc others]
          exact inductionHypothesis (prefers.sequence nextPrefers) all

theorem inOrder (all : PrefersAll patterns before run after spans) :
    (inOrder patterns).Prefers before run after spans := by
  have whole := PrefersAll.foldl .empty ((List.append_nil before).symm ▸ all)
  rwa [List.append_nil, List.nil_append] at whole

end PrefersAll

theorem Prefers.literal (text : String) : (literal text).Prefers before text.toList after [] := by
  have each (letters : List Char) : ∀ before : List Char,
      PrefersAll (letters.map fun letter => Pattern.one (· == letter)) before letters after [] := by
    induction letters with
    | nil => exact fun _ => .nil
    | cons letter rest inductionHypothesis =>
        intro before
        have first : (Pattern.one (· == letter)).Prefers before [letter] (rest ++ after) [] :=
          .one (beq_self_eq_true letter)
        exact .cons first (inductionHypothesis _)
  exact (each text.toList before).inOrder

/-- The matcher takes a word if none of the others stands at the same place. -/
theorem Prefers.wordOf {words : List String} {word : String} (member : word ∈ words)
    (alone : ∀ other ∈ words, other ≠ word → ¬ other.toList <+: word.toList ++ after) :
    (wordOf words).Prefers before word.toList after [] := by
  unfold Pattern.wordOf
  induction words with
  | nil => exact absurd member List.not_mem_nil
  | cons first others inductionHypothesis =>
      rw [List.forall_mem_cons] at alone
      have later : first ≠ word → (firstOf (others.map Pattern.literal)).Prefers before
          word.toList after [] := fun other =>
        inductionHypothesis ((List.mem_cons.mp member).resolve_left (Ne.symm other)) alone.2
      cases others with
      | nil =>
          obtain rfl := List.mem_singleton.mp member
          exact .literal word
      | cons second others =>
          by_cases here : first = word
          · exact .preferred (here ▸ .literal first)
          · exact .other (misses_literal (alone.1 here)) (later here)

/-! ## Searches -/

theorem Prefers.matchAt?_eq (prefers : pattern.Prefers before run after spans) {limit : Nat}
    (bounded : (run ++ after).length ≤ limit) :
    matchAt? pattern limit (.between before (run ++ after)) =
      some ⟨spanBehind before run, spans⟩ := by
  rw [matchAt?, prefers limit [] bounded, Option.map_some, Place.leads_between.spanTo_eq,
    List.append_nil]
  rfl

/-- A search finds what is preferred at the start of the text. -/
theorem Prefers.search?_eq (prefers : pattern.Prefers [] run after spans) :
    pattern.search? (run ++ after) = some ⟨spanBehind [] run, spans⟩ := by
  have matched := prefers.matchAt?_eq (Nat.le_refl _)
  unfold search?
  generalize run ++ after = letters at matched ⊢
  cases letters with
  | nil => exact matched
  | cons letter others =>
      have here : matchAt? pattern (letter :: others).length ⟨none, 0, letter :: others⟩ = _ :=
        matched
      rw [searchFrom, here]

section All

variable {limit free : Nat} {part : List Char}

/-- Places without a run are passed. -/
theorem searchAllFrom_of_misses
    (misses : ∀ front back, part = front ++ back → back ≠ [] →
      pattern.Misses (before ++ front) (back ++ rest)) :
    searchAllFrom pattern limit free before.getLast? (byteLength before) (part ++ rest) =
      searchAllFrom pattern limit free (before ++ part).getLast? (byteLength (before ++ part))
        rest := by
  induction part generalizing before with
  | nil => rw [List.nil_append, List.append_nil]
  | cons letter others inductionHypothesis =>
      have missesHere := misses [] (letter :: others) rfl (List.cons_ne_nil _ _)
      rw [List.append_nil] at missesHere
      have noMatch : matchAt? pattern limit
          ⟨before.getLast?, byteLength before, letter :: (others ++ rest)⟩ = none :=
        missesHere.matchAt?_eq limit
      have later := @inductionHypothesis (before ++ [letter]) fun front back shape someBack => by
        rw [List.append_assoc]
        exact misses (letter :: front) back (by rw [shape]; rfl) someBack
      rw [List.getLast?_concat, byteLength_concat, List.append_assoc] at later
      rw [List.cons_append, searchAllFrom]
      simp only [noMatch, ite_self]
      exact later

/-- If the pattern has no run behind a place, no match is found from there on. -/
theorem searchAllFrom_eq_nil
    (misses : ∀ front back, rest = front ++ back → pattern.Misses (before ++ front) back) :
    searchAllFrom pattern limit free before.getLast? (byteLength before) rest = [] := by
  have passed := @searchAllFrom_of_misses pattern before [] limit free rest
      fun front back shape _ => by
    rw [List.append_nil]
    exact misses front back shape
  have noMatch : matchAt? pattern limit
      ⟨(before ++ rest).getLast?, byteLength (before ++ rest), []⟩ = none :=
    (misses rest [] (List.append_nil rest).symm).matchAt?_eq limit
  rw [List.append_nil] at passed
  rw [passed, searchAllFrom, noMatch]
  exact ite_self []

theorem searchAllFrom_of_matchAt? {found : Match} (isFree : free ≤ byteLength before)
    (matched : matchAt? pattern limit (.between before (letter :: rest)) = some found) :
    ∃ later, searchAllFrom pattern limit free before.getLast? (byteLength before) (letter :: rest) =
      found :: searchAllFrom pattern limit later (some letter)
        (byteLength before + letter.utf8Size) rest := by
  have matchedHere : matchAt? pattern limit ⟨before.getLast?, byteLength before, letter :: rest⟩ =
      some found := matched
  rw [searchAllFrom, if_pos isFree, matchedHere]
  exact ⟨_, rfl⟩

end All

theorem searchAll_eq_nil {letters : List Char}
    (misses : ∀ front back, letters = front ++ back → pattern.Misses front back) :
    pattern.searchAll letters = [] :=
  @searchAllFrom_eq_nil pattern [] letters letters.length 0 misses

/-- If the pattern has runs at one place only, the preferred one is the only match. -/
theorem Prefers.searchAll_eq (prefers : pattern.Prefers before run after spans)
    (nonempty : run ≠ [])
    (misses : ∀ front back, before ++ (run ++ after) = front ++ back → front ≠ before →
      pattern.Misses front back) :
    pattern.searchAll (before ++ (run ++ after)) = [⟨spanBehind before run, spans⟩] := by
  have bounded : (run ++ after).length ≤ (before ++ (run ++ after)).length := by
    have whole := @List.length_append _ before (run ++ after)
    omega
  have matched := prefers.matchAt?_eq bounded
  have passed := @searchAllFrom_of_misses pattern [] (run ++ after)
    (before ++ (run ++ after)).length 0 before fun front back shape someBack => by
      refine misses front (back ++ (run ++ after)) (by rw [shape, List.append_assoc]) ?_
      rintro rfl
      exact someBack (List.append_right_eq_self.mp shape.symm)
  obtain ⟨letter, others, rfl⟩ := List.exists_cons_of_ne_nil nonempty
  obtain ⟨later, foundEq⟩ := @searchAllFrom_of_matchAt? pattern before (others ++ after) letter _ 0
    _ (Nat.zero_le _) matched
  have noMore := @searchAllFrom_eq_nil pattern (before ++ [letter]) (others ++ after)
    (before ++ (letter :: others ++ after)).length later fun front back shape => by
      refine misses (before ++ [letter] ++ front) back ?_ ?_
      · rw [List.append_assoc, List.append_assoc, ← shape]
        rfl
      · simp
  rw [List.getLast?_concat, byteLength_concat] at noMore
  rw [noMore] at foundEq
  exact passed.trans foundEq

end Pattern

end ScriptLint.Text
