import ScriptLint.Proofs.Text.Matches

/-!
# The order of matches

A search from left to right finds the next match at or behind the end of the one before. A group
lies within the whole of its match, so the spans that successive matches record under a number come
in the order of the matches too.
-/

namespace ScriptLint.Text.Pattern

/-! ## Groups within a match -/

namespace Runs

variable {pattern : Pattern} {reached next : Reached} {number : Nat} {span : Span}

theorem position_le (runs : Runs pattern reached next) :
    reached.place.position ≤ next.place.position := by
  obtain ⟨run, leads, _⟩ := runs.exists_leads
  rw [leads.position_eq]
  exact Nat.le_add_right _ _

/-- What a run records begins between the two ends of the run. -/
theorem start_within (runs : Runs pattern reached next) (member : (number, span) ∈ next.groups) :
    (number, span) ∈ reached.groups ∨
      (reached.place.position ≤ span.start ∧ span.start ≤ next.place.position) := by
  induction runs with
  | sequence firstRuns secondRuns firstHypothesis secondHypothesis
  | manyMore firstRuns secondRuns firstHypothesis secondHypothesis
  | fewMore firstRuns secondRuns firstHypothesis secondHypothesis =>
      have behindFirst := firstRuns.position_le
      have behindSecond := secondRuns.position_le
      rcases secondHypothesis member with earlier | within
      · rcases firstHypothesis earlier with before | within
        · exact Or.inl before
        · right
          omega
      · right
        omega
  | preferred _ hypothesis | other _ hypothesis => exact hypothesis member
  | group bodyRuns hypothesis =>
      have behind := bodyRuns.position_le
      rcases List.mem_cons.mp member with here | earlier
      · right
        cases here
        exact ⟨Nat.le_refl _, behind⟩
      · exact hypothesis earlier
  | _ => exact Or.inl member

end Runs

theorem IsMatch.group_start_within {pattern : Pattern} {letters : List Char} {found : Match}
    {number : Nat} {span : Span} (isMatch : IsMatch pattern letters found)
    (recorded : found.group? number = some span) :
    found.whole.start ≤ span.start ∧ span.start ≤ found.whole.stop := by
  have member := IsMatch.mem_groups_of_group? recorded
  obtain ⟨start, stop, _, noGroups, runs, rfl⟩ := isMatch
  rcases runs.start_within member with before | within
  · rw [noGroups] at before
    exact absurd before List.not_mem_nil
  · exact within

/-! ## Successive matches -/

variable {pattern : Pattern} {limit free position : Nat} {before : Option Char}
  {rest : List Char} {found : Match}

theorem start_of_matchAt? {place : Place} (matched : matchAt? pattern limit place = some found) :
    found.whole.start = place.position := by
  rw [matchAt?, Option.map_eq_some_iff] at matched
  obtain ⟨reached, _, rfl⟩ := matched
  rfl

/-- No match begins before the place where the search begins, nor before the free position. -/
theorem le_start_of_mem_searchAllFrom
    (member : found ∈ searchAllFrom pattern limit free before position rest) :
    free ≤ found.whole.start ∧ position ≤ found.whole.start := by
  induction rest generalizing free before position with
  | nil =>
      rw [searchAllFrom] at member
      split at member
      · next isFree =>
          rw [start_of_matchAt? (Option.mem_toList.mp member)]
          exact ⟨isFree, Nat.le_refl _⟩
      · exact absurd member List.not_mem_nil
  | cons letter rest inductionHypothesis =>
      have later : ∀ {further}, free ≤ further →
          found ∈ searchAllFrom pattern limit further (some letter)
            (position + letter.utf8Size) rest →
          free ≤ found.whole.start ∧ position ≤ found.whole.start := by
        intro further behind inRest
        have bounds := inductionHypothesis inRest
        omega
      simp only [searchAllFrom] at member
      split at member
      · next isFree =>
          split at member
          · next here matched =>
              rcases List.mem_cons.mp member with same | inRest
              · rw [same, start_of_matchAt? matched]
                exact ⟨isFree, Nat.le_refl _⟩
              · refine later ?_ inRest
                split <;> omega
          · exact later (Nat.le_refl _) member
      · exact later (Nat.le_refl _) member

/-- The next match begins at or behind the end of the one before. -/
theorem pairwise_searchAllFrom :
    (searchAllFrom pattern limit free before position rest).Pairwise fun first second =>
      first.whole.stop ≤ second.whole.start := by
  induction rest generalizing free before position with
  | nil =>
      rw [searchAllFrom]
      split
      · cases matchAt? pattern limit ⟨before, position, []⟩ with
        | none => exact .nil
        | some found => exact List.pairwise_singleton _ _
      · exact .nil
  | cons letter rest inductionHypothesis =>
      simp only [searchAllFrom]
      split
      · split
        · refine List.pairwise_cons.mpr ⟨fun second member => ?_, inductionHypothesis⟩
          have bounds := le_start_of_mem_searchAllFrom member
          split at bounds <;> omega
        · exact inductionHypothesis
      · exact inductionHypothesis

/-- What successive matches record under a number begins in the order of the matches. -/
theorem pairwise_group_start (pattern : Pattern) (letters : List Char) (number : Nat) :
    (pattern.searchAll letters).Pairwise fun first second =>
      ∀ span, first.group? number = some span → ∀ later, second.group? number = some later →
        span.start ≤ later.start := by
  have ordered : (pattern.searchAll letters).Pairwise fun first second =>
      first.whole.stop ≤ second.whole.start := pairwise_searchAllFrom
  refine ordered.imp_of_mem fun {first second} firstMember secondMember behind => ?_
  intro span recorded later recordedLater
  have within := (isMatch_of_mem_searchAll firstMember).group_start_within recorded
  have withinLater := (isMatch_of_mem_searchAll secondMember).group_start_within recordedLater
  omega

end ScriptLint.Text.Pattern
