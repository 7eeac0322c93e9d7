import ScriptLint.Text.Pattern
import Mathlib.Data.List.Basic

/-!
# The ends of sequences and repetitions

The matcher threads what it has seen through the steps of a sequence, and an accumulator through
those of a repetition. Both come down to operations on whole lists: a sequence keeps the first end at
each place of all the ends of its second pattern, and a repetition lists the ends of its repetitions
one after the other.
-/

namespace ScriptLint.Text.Reached

variable {step : Reached → List Reached} {origin : Nat}

/-! ## Sequences -/

theorem testBit_see (seen distance other : Nat) :
    (seen ||| 1 <<< distance).testBit other = (seen.testBit other || distance == other) := by
  rw [Nat.testBit_or, Nat.one_shiftLeft, Nat.testBit_two_pow]
  rfl

theorem keepNew_append (first second : List Reached) (seen : Nat) :
    keepNew origin (first ++ second) seen =
      ((keepNew origin first seen).1 ++ (keepNew origin second (keepNew origin first seen).2).1,
        (keepNew origin second (keepNew origin first seen).2).2) := by
  induction first generalizing seen with
  | nil => rfl
  | cons reached rest inductionHypothesis =>
      simp only [List.cons_append, keepNew]
      split
      · exact inductionHypothesis seen
      · rw [inductionHypothesis]
        rfl

/-- Of all the ends of a step the first one at each place is kept. -/
theorem advance_eq_keepNew (others : List Reached) (seen : Nat) :
    advance step origin others seen = (keepNew origin (others.flatMap step) seen).1 := by
  induction others generalizing seen with
  | nil => rfl
  | cons reached rest inductionHypothesis =>
      rw [List.flatMap_cons, keepNew_append]
      simp only [advance, inductionHypothesis]

/-- Some end is kept at the place of every end, unless the place was seen before. -/
theorem exists_mem_keepNew (origin : Nat) {reached : Reached} {others : List Reached} {seen : Nat}
    (member : reached ∈ others)
    (unseen : seen.testBit (reached.place.position - origin) = false) :
    ∃ kept ∈ (keepNew origin others seen).1,
      kept.place.position - origin = reached.place.position - origin := by
  induction others generalizing seen with
  | nil => exact absurd member List.not_mem_nil
  | cons first rest inductionHypothesis =>
      simp only [keepNew]
      split
      · next wasSeen =>
          rcases List.mem_cons.mp member with same | later
          · rw [← same, unseen] at wasSeen
            cases wasSeen
          · exact inductionHypothesis later unseen
      · by_cases same : first.place.position - origin = reached.place.position - origin
        · exact ⟨first, List.mem_cons_self, same⟩
        · have later : reached ∈ rest := by
            rcases List.mem_cons.mp member with here | later
            · exact absurd (here ▸ rfl) same
            · exact later
          have stillUnseen : (seen ||| 1 <<< (first.place.position - origin)).testBit
              (reached.place.position - origin) = false := by
            rw [testBit_see, unseen, Bool.false_or, beq_eq_false_iff_ne]
            exact same
          obtain ⟨kept, keptMember, sameDistance⟩ := inductionHypothesis later stillUnseen
          exact ⟨kept, List.mem_cons_of_mem first keptMember, sameDistance⟩

/-- An end that is not farther from the origin than the bound. -/
def isNear (origin bound : Nat) (reached : Reached) : Bool :=
  reached.place.position - origin ≤ bound

/-- What is kept up to a bound does not depend on what is farther away. -/
theorem filter_keepNew (bound : Nat) (others : List Reached) {seen known : Nat}
    (agree : ∀ distance ≤ bound, seen.testBit distance = known.testBit distance) :
    (keepNew origin others seen).1.filter (isNear origin bound) =
      (keepNew origin (others.filter (isNear origin bound)) known).1 := by
  induction others generalizing seen known with
  | nil => rfl
  | cons first rest inductionHypothesis =>
      cases near : isNear origin bound first with
      | true =>
          have within := of_decide_eq_true near
          rw [List.filter_cons_of_pos near]
          simp only [keepNew, agree _ within]
          split
          · exact inductionHypothesis agree
          · rw [List.filter_cons_of_pos near]
            congr 1
            apply inductionHypothesis
            intro distance isWithin
            rw [testBit_see, testBit_see, agree distance isWithin]
      | false =>
          have beyond := of_decide_eq_false near
          have far : ¬ isNear origin bound first = true := ne_true_of_eq_false near
          rw [List.filter_cons_of_neg far]
          simp only [keepNew]
          split
          · exact inductionHypothesis agree
          · rw [List.filter_cons_of_neg far]
            apply inductionHypothesis
            intro distance isWithin
            have other : first.place.position - origin ≠ distance := by
              intro same
              exact beyond (same ▸ isWithin)
            rw [testBit_see, agree distance isWithin, beq_eq_false_iff_ne.mpr other,
              Bool.or_false]

/-! ## Repetitions -/

theorem foldr_eq_flatMap {next : Reached → List Reached → List Reached}
    (appends : ∀ reached others, next reached others = next reached [] ++ others)
    (reached others : List Reached) :
    reached.foldr next others = reached.flatMap (fun first => next first []) ++ others := by
  induction reached with
  | nil => rfl
  | cons first rest inductionHypothesis =>
      rw [List.foldr_cons, inductionHypothesis, appends, List.flatMap_cons, List.append_assoc]

theorem repeatMany_eq_append (count : Nat) (reached : Reached) (others : List Reached) :
    repeatMany step count reached others = repeatMany step count reached [] ++ others := by
  induction count generalizing reached others with
  | zero => rfl
  | succ count inductionHypothesis =>
      rw [repeatMany, repeatMany, foldr_eq_flatMap inductionHypothesis,
        foldr_eq_flatMap inductionHypothesis, List.append_assoc, List.singleton_append]

theorem repeatMany_succ (count : Nat) (reached : Reached) :
    repeatMany step (count + 1) reached [] =
      ((step reached).filter (·.isBeyond reached)).flatMap
        (fun next => repeatMany step count next []) ++ [reached] := by
  rw [repeatMany, foldr_eq_flatMap (repeatMany_eq_append count)]

theorem repeatFew_eq_append (count : Nat) (reached : Reached) (others : List Reached) :
    repeatFew step count reached others = repeatFew step count reached [] ++ others := by
  induction count generalizing reached others with
  | zero => rfl
  | succ count inductionHypothesis =>
      rw [repeatFew, repeatFew, foldr_eq_flatMap inductionHypothesis,
        foldr_eq_flatMap inductionHypothesis, List.append_nil, List.cons_append]

theorem repeatFew_succ (count : Nat) (reached : Reached) :
    repeatFew step (count + 1) reached [] =
      reached :: ((step reached).filter (·.isBeyond reached)).flatMap
        (fun next => repeatFew step count next []) := by
  rw [repeatFew, foldr_eq_flatMap (repeatFew_eq_append count), List.append_nil]

end ScriptLint.Text.Reached
