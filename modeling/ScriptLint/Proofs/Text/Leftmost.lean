import ScriptLint.Proofs.Text.MatchOrder
import ScriptLint.Proofs.Text.Preferred

/-!
# What a search passes over

A search from left to right takes the preferred match at every place that no earlier match covers.
So a match that the pattern prefers at its place is missed only if an earlier match reaches over its
start.
-/

namespace ScriptLint.Text.Pattern

variable {pattern : Pattern} {limit free : Nat} {before part rest letters : List Char}
  {found : Match}

theorem searchAllFrom_cons (letter : Char) :
    searchAllFrom pattern limit free before.getLast? (byteLength before) (letter :: rest) =
      match if free ≤ byteLength before then
          matchAt? pattern limit (.between before (letter :: rest)) else none with
      | some found => found :: searchAllFrom pattern limit
          (if byteLength before < found.whole.stop then found.whole.stop
            else byteLength before + 1)
          (before ++ [letter]).getLast? (byteLength (before ++ [letter])) rest
      | none => searchAllFrom pattern limit free (before ++ [letter]).getLast?
          (byteLength (before ++ [letter])) rest := by
  rw [List.getLast?_concat, byteLength_concat, searchAllFrom]
  split_ifs with isFree
  · rfl
  · rfl

/-- A search finds what is preferred at the places of its matches. -/
theorem matchAt?_of_mem_searchAllFrom
    (member : found ∈ searchAllFrom pattern limit free before.getLast? (byteLength before) rest) :
    ∃ front back, rest = front ++ back ∧
      matchAt? pattern limit (.between (before ++ front) back) = some found := by
  induction rest generalizing before free with
  | nil =>
      rw [searchAllFrom] at member
      split_ifs at member
      · refine ⟨[], [], rfl, ?_⟩
        rw [List.append_nil]
        exact Option.mem_toList.mp member
      · exact absurd member List.not_mem_nil
  | cons letter rest inductionHypothesis =>
      have later : ∀ {free}, found ∈ searchAllFrom pattern limit free
          (before ++ [letter]).getLast? (byteLength (before ++ [letter])) rest →
          ∃ front back, letter :: rest = front ++ back ∧
            matchAt? pattern limit (.between (before ++ front) back) = some found := by
        intro free inRest
        obtain ⟨front, back, rfl, matched⟩ := inductionHypothesis inRest
        rw [List.append_assoc] at matched
        exact ⟨letter :: front, back, rfl, matched⟩
      rw [searchAllFrom_cons] at member
      split at member
      · next here matched =>
          rcases List.mem_cons.mp member with rfl | inRest
          · rw [Option.ite_none_right_eq_some] at matched
            refine ⟨[], letter :: rest, rfl, ?_⟩
            rw [List.append_nil]
            exact matched.2
          · exact later inRest
      · exact later member

/-- A search takes the preferred match at a place to which no earlier match reaches. -/
theorem mem_searchAllFrom
    (matched : matchAt? pattern limit (.between (before ++ part) rest) = some found)
    (isFree : free ≤ byteLength (before ++ part))
    (apart : ∀ earlier ∈ searchAllFrom pattern limit free before.getLast? (byteLength before)
        (part ++ rest), earlier.whole.start < byteLength (before ++ part) →
      earlier.whole.stop ≤ byteLength (before ++ part)) :
    found ∈ searchAllFrom pattern limit free before.getLast? (byteLength before)
      (part ++ rest) := by
  induction part generalizing before free with
  | nil =>
      rw [List.append_nil] at matched isFree
      rw [List.nil_append]
      cases rest with
      | nil =>
          rw [searchAllFrom, if_pos isFree]
          exact Option.mem_toList.mpr matched
      | cons letter rest =>
          obtain ⟨later, foundEq⟩ := searchAllFrom_of_matchAt? isFree matched
          rw [foundEq]
          exact List.mem_cons_self
  | cons letter others inductionHypothesis =>
      have behind : byteLength before < byteLength (before ++ letter :: others) := by
        have size := letter.utf8Size_pos
        rw [byteLength_append, byteLength_cons]
        omega
      have wholeEq : before ++ letter :: others = before ++ [letter] ++ others := by simp
      rw [List.cons_append, searchAllFrom_cons] at apart ⊢
      rw [wholeEq] at matched isFree apart behind
      split at apart
      · next here matchedHere =>
          rw [Option.ite_none_right_eq_some] at matchedHere
          have startEq : here.whole.start = byteLength before :=
            start_of_matchAt? matchedHere.2
          have reaches := apart here List.mem_cons_self (startEq ▸ behind)
          apply List.mem_cons_of_mem
          refine inductionHypothesis matched ?_ fun earlier member => ?_
          · split_ifs
            · exact reaches
            · exact behind
          · exact apart earlier (List.mem_cons_of_mem _ member)
      · exact inductionHypothesis matched isFree apart

theorem matchAt?_of_mem_searchAll (member : found ∈ pattern.searchAll letters) :
    ∃ front back, letters = front ++ back ∧
      matchAt? pattern letters.length (.between front back) = some found :=
  @matchAt?_of_mem_searchAllFrom pattern letters.length 0 [] letters found member

theorem mem_searchAll
    (matched : matchAt? pattern (part ++ rest).length (.between part rest) = some found)
    (apart : ∀ earlier ∈ pattern.searchAll (part ++ rest),
      earlier.whole.start < byteLength part → earlier.whole.stop ≤ byteLength part) :
    found ∈ pattern.searchAll (part ++ rest) :=
  @mem_searchAllFrom pattern _ 0 [] part rest found matched (Nat.zero_le _) apart

/-! ## Repetitions -/

variable {run after : List Char} {spans : List (Nat × Span)}

/-- One repetition in front of the preferred ones. -/
theorem Prefers.head?_repeatMany (prefers : pattern.Prefers before run after spans)
    (nonempty : run ≠ []) (bounded : (run ++ after).length ≤ limit) {count : Nat}
    {groups : List (Nat × Span)} {next : Reached}
    (later : (Reached.repeatMany (ends limit pattern) count
      ⟨.between (before ++ run) after, spans ++ groups⟩ []).head? = some next) :
    (Reached.repeatMany (ends limit pattern) (count + 1)
      ⟨.between before (run ++ after), groups⟩ []).head? = some next := by
  obtain ⟨others, endsEq⟩ := List.head?_eq_some_iff.mp (prefers limit groups bounded)
  have beyond : (Reached.mk (.between (before ++ run) after) (spans ++ groups)).isBeyond
      ⟨.between before (run ++ after), groups⟩ = true := by
    have longer := length_le_byteLength run
    have someRun := List.length_pos_of_ne_nil nonempty
    apply decide_eq_true
    change byteLength before < byteLength (before ++ run)
    rw [byteLength_append]
    omega
  rw [Reached.repeatMany_succ, endsEq, List.filter_cons, if_pos beyond, List.flatMap_cons,
    List.append_assoc, List.head?_append, later]
  rfl

end ScriptLint.Text.Pattern
