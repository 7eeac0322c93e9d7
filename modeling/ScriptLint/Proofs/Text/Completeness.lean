import ScriptLint.Proofs.Text.Ends
import ScriptLint.Proofs.Text.Matches
import Mathlib.Logic.Relation

/-!
# Every run is found

Wherever a pattern has a run, the matcher lists an end at the place where the run ends. It may have
come there on another way, so nothing is said about the groups. Repetitions leave out the runs that
do not move on, and every other run passes a character, so as many repetitions as there are
characters suffice.
-/

namespace ScriptLint.Text

/-- The way from behind the first character on. -/
theorem Place.Leads.tail {before : Option Char} {position : Nat} {letter first : Char}
    {rest others : List Char} {stop : Place}
    (leads : Place.Leads ⟨before, position, letter :: rest⟩ (first :: others) stop) :
    Place.Leads ⟨some letter, position + letter.utf8Size, rest⟩ others stop := by
  obtain ⟨restEq, positionEq, beforeEq⟩ := leads
  obtain ⟨rfl, restOthers⟩ := List.cons.inj restEq
  refine ⟨restOthers, ?_, ?_⟩
  · rw [positionEq, byteLength_cons, Nat.add_assoc]
  · rw [beforeEq, List.getLast?_cons]
    cases others.getLast? with
    | none => rfl
    | some last => rfl

namespace Pattern

variable {body pattern : Pattern} {reached next start : Reached} {limit count : Nat}

/-! ## Repetitions -/

theorem Runs.reflTransGen_of_many (runs : Runs (many body) reached next) :
    Relation.ReflTransGen (Runs body) reached next := by
  generalize patternEq : many body = pattern at runs
  induction runs with
  | manyNone => exact .refl
  | manyMore bodyRuns _ _ restHypothesis =>
      cases patternEq
      exact .head bodyRuns (restHypothesis rfl)
  | _ => cases patternEq

theorem Runs.reflTransGen_of_few (runs : Runs (few body) reached next) :
    Relation.ReflTransGen (Runs body) reached next := by
  generalize patternEq : few body = pattern at runs
  induction runs with
  | fewNone => exact .refl
  | fewMore bodyRuns _ _ restHypothesis =>
      cases patternEq
      exact .head bodyRuns (restHypothesis rfl)
  | _ => cases patternEq

/-- A repetition that includes no repetition and one repetition more includes all repetitions that
move on, and so reaches every place that any of them reaches. -/
theorem exists_mem_repetition {step : Reached → List Reached}
    (repetition : Nat → Reached → List Reached)
    (done : ∀ count reached, reached ∈ repetition count reached)
    (more : ∀ count reached middle next, middle ∈ step reached →
      middle.isBeyond reached = true → next ∈ repetition count middle →
        next ∈ repetition (count + 1) reached)
    (complete : ∀ {reached next start}, Runs body reached next →
      reached.place.rest.length ≤ limit → start.place = reached.place →
        ∃ stop ∈ step start, stop.place = next.place)
    (repeats : Relation.ReflTransGen (Runs body) reached next)
    (bounded : reached.place.rest.length ≤ limit) (enough : reached.place.rest.length ≤ count)
    (same : start.place = reached.place) :
    ∃ stop ∈ repetition count start, stop.place = next.place := by
  induction repeats using Relation.ReflTransGen.head_induction_on generalizing count start with
  | refl => exact ⟨start, done count start, same⟩
  | @head reached middle bodyRuns _ inductionHypothesis =>
      rcases bodyRuns.place_eq_or_lt with stays | ⟨further, shorter⟩
      · exact inductionHypothesis (stays ▸ bounded) (stays ▸ enough) (same.trans stays.symm)
      · obtain ⟨found, foundMember, samePlace⟩ := complete bodyRuns bounded same
        obtain ⟨rest, rfl⟩ : ∃ rest, count = rest + 1 :=
          Nat.exists_eq_add_one.mpr (by omega)
        obtain ⟨stop, stopMember, stopEq⟩ :=
          @inductionHypothesis found rest (by omega) (by omega) samePlace
        refine ⟨stop, more rest start found stop foundMember ?_ stopMember, stopEq⟩
        rw [Reached.isBeyond, samePlace, same]
        exact decide_eq_true further

/-! ## All patterns -/

/-- The matcher lists an end at the place of every run. -/
theorem exists_mem_ends (runs : Runs pattern reached next)
    (bounded : reached.place.rest.length ≤ limit) (same : start.place = reached.place) :
    ∃ stop ∈ ends limit pattern start, stop.place = next.place := by
  induction pattern generalizing reached next start with
  | empty =>
      cases runs
      exact ⟨start, List.mem_singleton_self start, same⟩
  | one accepts =>
      cases runs with
      | @one _ _ letter rest follows accepted =>
          rw [ends, same, follows]
          simp only [accepted, if_true]
          exact ⟨_, List.mem_singleton_self _, rfl⟩
  | sequence first second firstHypothesis secondHypothesis =>
      cases runs with
      | @sequence _ _ _ middle _ firstRuns secondRuns =>
          obtain ⟨found, foundMember, foundPlace⟩ := firstHypothesis firstRuns bounded same
          have shorter : middle.place.rest.length ≤ limit := by
            rcases firstRuns.place_eq_or_lt with stays | ⟨_, less⟩
            · rw [stays]
              exact bounded
            · omega
          obtain ⟨stop, stopMember, stopPlace⟩ := secondHypothesis secondRuns shorter foundPlace
          have listed : stop ∈ (ends limit first start).flatMap (ends limit second) :=
            List.mem_flatMap.mpr ⟨found, foundMember, stopMember⟩
          have leadsOf : ∀ stop ∈ (ends limit first start).flatMap (ends limit second),
              ∃ run, start.place.Leads run stop.place := by
            intro stop member
            obtain ⟨middle, middleMember, member⟩ := List.mem_flatMap.mp member
            obtain ⟨run, leads, _⟩ := (Runs.sequence (runs_of_mem_ends middleMember)
              (runs_of_mem_ends member)).exists_leads
            exact ⟨run, leads⟩
          -- another end may be kept in its stead, but only one that is as far away
          obtain ⟨kept, keptMember, sameDistance⟩ :=
            Reached.exists_mem_keepNew start.place.position listed
              (Nat.zero_testBit _)
          obtain ⟨run, leads⟩ := leadsOf stop listed
          obtain ⟨further, leadsKept⟩ := leadsOf kept (mem_of_mem_keepNew keptMember)
          have samePlace : kept.place = stop.place := by
            apply leadsKept.eq_of_position_eq leads
            have first := leads.position_eq
            have second := leadsKept.position_eq
            omega
          rw [ends, Reached.advance_eq_keepNew]
          exact ⟨kept, keptMember, samePlace.trans stopPlace⟩
  | choice preferred other preferredHypothesis otherHypothesis =>
      rw [ends]
      cases runs with
      | preferred preferredRuns =>
          obtain ⟨stop, member, stopPlace⟩ := preferredHypothesis preferredRuns bounded same
          exact ⟨stop, List.mem_append_left _ member, stopPlace⟩
      | other otherRuns =>
          obtain ⟨stop, member, stopPlace⟩ := otherHypothesis otherRuns bounded same
          exact ⟨stop, List.mem_append_right _ member, stopPlace⟩
  | many body bodyHypothesis =>
      refine exists_mem_repetition
        (fun count reached => Reached.repeatMany (ends limit body) count reached [])
        ?_ ?_ bodyHypothesis runs.reflTransGen_of_many bounded bounded same
      · intro count reached
        cases count with
        | zero => exact List.mem_singleton_self _
        | succ count =>
            rw [Reached.repeatMany_succ]
            exact List.mem_append_right _ (List.mem_singleton_self _)
      · intro count reached middle next member beyond nextMember
        rw [Reached.repeatMany_succ]
        exact List.mem_append_left _
          (List.mem_flatMap.mpr ⟨middle, List.mem_filter.mpr ⟨member, beyond⟩, nextMember⟩)
  | few body bodyHypothesis =>
      refine exists_mem_repetition
        (fun count reached => Reached.repeatFew (ends limit body) count reached [])
        ?_ ?_ bodyHypothesis runs.reflTransGen_of_few bounded bounded same
      · intro count reached
        cases count with
        | zero => exact List.mem_singleton_self _
        | succ count =>
            rw [Reached.repeatFew_succ]
            exact List.mem_cons_self
      · intro count reached middle next member beyond nextMember
        rw [Reached.repeatFew_succ]
        exact List.mem_cons_of_mem _
          (List.mem_flatMap.mpr ⟨middle, List.mem_filter.mpr ⟨member, beyond⟩, nextMember⟩)
  | group number body bodyHypothesis =>
      cases runs with
      | group bodyRuns =>
          obtain ⟨stop, member, stopPlace⟩ := bodyHypothesis bodyRuns bounded same
          exact ⟨_, List.mem_map_of_mem member, stopPlace⟩
  | atStart =>
      cases runs with
      | atStart isFirst =>
          rw [ends, same, if_pos isFirst]
          exact ⟨start, List.mem_singleton_self start, same⟩
  | atEnd =>
      cases runs with
      | atEnd isLast =>
          rw [ends, same, if_pos (List.isEmpty_iff.mpr isLast)]
          exact ⟨start, List.mem_singleton_self start, same⟩
  | atWordEdge =>
      cases runs with
      | atWordEdge isEdge =>
          rw [ends, same, if_pos isEdge]
          exact ⟨start, List.mem_singleton_self start, same⟩

/-! ## Searches -/

theorem exists_matchAt? (runs : Runs pattern reached next)
    (bounded : reached.place.rest.length ≤ limit) :
    ∃ found, matchAt? pattern limit reached.place = some found := by
  obtain ⟨stop, member, _⟩ := @exists_mem_ends _ _ _ ⟨reached.place, []⟩ _ runs bounded rfl
  cases endsEq : ends limit pattern ⟨reached.place, []⟩ with
  | nil =>
      rw [endsEq] at member
      exact absurd member List.not_mem_nil
  | cons first others =>
      rw [matchAt?, endsEq]
      exact ⟨_, rfl⟩

theorem isSome_searchFrom {position : Nat} {before : Option Char} {rest run : List Char}
    (leads : Place.Leads ⟨before, position, rest⟩ run reached.place)
    (runs : Runs pattern reached next) (bounded : rest.length ≤ limit) :
    (searchFrom pattern limit before position rest).isSome := by
  have matched : ∀ {place : Place}, place.Leads [] reached.place → place.rest.length ≤ limit →
      ∃ found, matchAt? pattern limit place = some found := by
    intro place stays bounded
    have here : place = reached.place :=
      (Place.Leads.refl _).eq_of_position_eq stays stays.position_eq.symm
    rw [here] at bounded ⊢
    exact exists_matchAt? runs bounded
  induction rest generalizing before position run with
  | nil =>
      have noRun : run = [] := (List.append_eq_nil_iff.mp leads.rest_eq.symm).1
      obtain ⟨found, foundEq⟩ := matched (noRun ▸ leads) bounded
      rw [searchFrom, foundEq]
      rfl
  | cons letter rest inductionHypothesis =>
      rw [searchFrom]
      split
      · rfl
      · next notMatched =>
          cases run with
          | nil =>
              obtain ⟨found, foundEq⟩ := matched leads bounded
              cases notMatched.symm.trans foundEq
          | cons first others =>
              exact inductionHypothesis leads.tail (Nat.le_of_succ_le bounded)

/-- A pattern occurs in a text exactly if it has a run between two places of the text. -/
theorem occursIn_iff {letters : List Char} :
    pattern.occursIn letters = true ↔
      ∃ start stop : Reached, start.place.IsIn letters ∧ Runs pattern start stop := by
  rw [occursIn, Option.isSome_iff_exists]
  constructor
  · rintro ⟨found, foundEq⟩
    obtain ⟨start, stop, inText, _, runs, _⟩ := isMatch_of_search? foundEq
    exact ⟨start, stop, inText, runs⟩
  · rintro ⟨start, stop, ⟨passed, leads⟩, runs⟩
    exact Option.isSome_iff_exists.mp (isSome_searchFrom leads runs (Nat.le_refl _))

end Pattern

end ScriptLint.Text
