import ScriptLint.Proofs.Text.Ends
import ScriptLint.Proofs.Text.Matches

/-!
# One more character at the end

A character that is no word character is put at the end of a text. A pattern that does not ask for
the end of the text finds the ends that it found before, in the same order and with the same groups,
and besides them only ends behind the new character. If no run of the pattern ends with that
character, the search finds the matches that it found before.
-/

namespace ScriptLint.Text

variable {letter : Char}

/-- The place in the text with one more character. -/
def Place.extend (letter : Char) (place : Place) : Place :=
  { place with rest := place.rest ++ [letter] }

theorem Place.Leads.extend {start stop : Place} {run : List Char} (leads : start.Leads run stop)
    (letter : Char) : (start.extend letter).Leads run (stop.extend letter) where
  rest_eq := by rw [Place.extend, Place.extend, leads.rest_eq, List.append_assoc]
  position_eq := leads.position_eq
  before_eq := leads.before_eq

theorem Place.Leads.spanTo_extend {start stop : Place} {run : List Char}
    (leads : start.Leads run stop) (letter : Char) :
    (start.extend letter).spanTo (stop.extend letter) = start.spanTo stop := by
  rw [leads.spanTo_eq, (leads.extend letter).spanTo_eq]
  rfl

/-- At the end of a text a word ends just as it does before a character that is no word character. -/
theorem Place.isWordEdge_extend (noWord : isWord letter = false) (place : Place) :
    (place.extend letter).isWordEdge = place.isWordEdge := by
  rw [isWordEdge, isWordEdge, extend]
  cases place.rest with
  | nil =>
      simp only [List.nil_append, List.head?_cons, List.head?_nil, Option.any_some, noWord,
        Option.any_none]
  | cons found rest => rfl

namespace Reached

/-- The partial match of the text with one more character. -/
def extend (letter : Char) (reached : Reached) : Reached :=
  { reached with place := reached.place.extend letter }

/-- There are characters left behind a partial match. -/
def hasMore (reached : Reached) : Bool := !reached.place.rest.isEmpty

theorem hasMore_extend (letter : Char) (reached : Reached) :
    (reached.extend letter).hasMore = true := by
  rw [hasMore, extend, Place.extend, Bool.not_eq_true', List.isEmpty_eq_false_iff]
  exact List.concat_ne_nil _ _

theorem hasMore_eq_false_iff {reached : Reached} :
    reached.hasMore = false ↔ reached.place.rest = [] := by
  rw [hasMore, Bool.not_eq_false', List.isEmpty_iff]

theorem keepNew_map_extend (origin : Nat) (others : List Reached) (seen : Nat) :
    (keepNew origin (others.map (extend letter)) seen).1 =
      (keepNew origin others seen).1.map (extend letter) := by
  induction others generalizing seen with
  | nil => rfl
  | cons first rest inductionHypothesis =>
      have samePosition : (first.extend letter).place.position = first.place.position := rfl
      simp only [List.map_cons, keepNew, samePosition]
      split
      · exact inductionHypothesis seen
      · rw [List.map_cons, inductionHypothesis]

/-! ## Lists of ends -/

/-- The second list is the first one in the text with one more character, but for ends behind that
character. -/
def Extends (letter : Char) (others longer : List Reached) : Prop :=
  longer.filter hasMore = others.map (extend letter)

namespace Extends

variable {others longer : List Reached}

theorem nil : Extends letter [] [] := rfl

theorem singleton (reached : Reached) : Extends letter [reached] [reached.extend letter] := by
  rw [Extends, List.filter_cons_of_pos (hasMore_extend letter reached)]
  rfl

theorem ite (condition : Prop) [Decidable condition] (reached : Reached) :
    Extends letter (if condition then [reached] else [])
      (if condition then [reached.extend letter] else []) := by
  split
  · exact .singleton reached
  · exact .nil

theorem append {further furtherLonger : List Reached} (extends₁ : Extends letter others longer)
    (extends₂ : Extends letter further furtherLonger) :
    Extends letter (others ++ further) (longer ++ furtherLonger) := by
  rw [Extends, List.filter_append, extends₁, extends₂, List.map_append]

theorem map {record recordLonger : Reached → Reached} (extends₁ : Extends letter others longer)
    (same : ∀ reached ∈ others, recordLonger (reached.extend letter) = (record reached).extend letter)
    (keepsMore : ∀ reached, (recordLonger reached).hasMore = reached.hasMore) :
    Extends letter (others.map record) (longer.map recordLonger) := by
  have sameMore : hasMore ∘ recordLonger = hasMore := funext keepsMore
  rw [Extends, List.filter_map, sameMore, extends₁, List.map_map, List.map_map]
  exact List.map_congr_left same

theorem flatMap (next : Reached → List Reached) {nextLonger : Reached → List Reached}
    (starts : Extends letter others longer)
    (each : ∀ start ∈ others, Extends letter (next start) (nextLonger (start.extend letter)))
    (behind : ∀ start, start.hasMore = false → ∀ stop ∈ nextLonger start, stop.hasMore = false) :
    Extends letter (others.flatMap next) (longer.flatMap nextLonger) := by
  have onlyMore : (longer.flatMap nextLonger).filter hasMore =
      (longer.filter hasMore).flatMap fun start => (nextLonger start).filter hasMore := by
    clear starts
    induction longer with
    | nil => rfl
    | cons first rest inductionHypothesis =>
        rw [List.flatMap_cons, List.filter_append, inductionHypothesis]
        cases more : first.hasMore with
        | true => rw [List.filter_cons_of_pos more, List.flatMap_cons]
        | false =>
            have none : (nextLonger first).filter hasMore = [] := by
              rw [List.filter_eq_nil_iff]
              exact fun stop member => ne_true_of_eq_false (behind first more stop member)
            rw [List.filter_cons_of_neg (ne_true_of_eq_false more), none, List.nil_append]
  rw [Extends, onlyMore, starts, List.flatMap_map, List.map_flatMap]
  exact List.flatMap_congr each

theorem filter_isBeyond (extends₁ : Extends letter others longer) (reached : Reached) :
    Extends letter (others.filter (·.isBeyond reached))
      (longer.filter (·.isBeyond (reached.extend letter))) := by
  have samePosition : (fun next : Reached => next.isBeyond (reached.extend letter)) =
      fun next : Reached => next.isBeyond reached := rfl
  have sameTest : (fun next : Reached => next.isBeyond reached) ∘ extend letter =
      fun next : Reached => next.isBeyond reached := rfl
  rw [Extends, List.filter_comm, extends₁, samePosition, List.filter_map, sameTest]

/-- Of the ends of a sequence the first one at each place is kept. The places behind the new
character are farther away than all others, so they do not matter for those. -/
theorem keepNew (extends₁ : Extends letter others longer) {origin : Nat} (bound : Nat)
    (far : ∀ stop ∈ longer, stop.hasMore = isNear origin bound stop) :
    Extends letter (Reached.keepNew origin others 0).1 (Reached.keepNew origin longer 0).1 := by
  have farKept : ∀ stop ∈ (Reached.keepNew origin longer 0).1,
      stop.hasMore = isNear origin bound stop := fun stop member =>
    far stop (Pattern.mem_of_mem_keepNew member)
  rw [Extends, List.filter_congr farKept, filter_keepNew bound longer fun _ _ => rfl,
    ← List.filter_congr far, extends₁, keepNew_map_extend]

/-- Repetitions of a step that leads to the same ends lead to the same ends. -/
theorem repetition {step stepLonger : Reached → List Reached}
    (assemble : Reached → List Reached → List Reached)
    (repetition repetitionLonger : Nat → Reached → List Reached)
    (zero : ∀ reached, repetition 0 reached = assemble reached [])
    (succ : ∀ count reached, repetition (count + 1) reached =
      assemble reached (((step reached).filter (·.isBeyond reached)).flatMap (repetition count)))
    (succLonger : ∀ count reached, repetitionLonger (count + 1) reached =
      assemble reached
        (((stepLonger reached).filter (·.isBeyond reached)).flatMap (repetitionLonger count)))
    (assembles : ∀ reached others longer, Extends letter others longer →
      Extends letter (assemble reached others) (assemble (reached.extend letter) longer))
    (behind : ∀ count start, start.hasMore = false →
      ∀ stop ∈ repetitionLonger count start, stop.hasMore = false)
    {limit : Nat}
    (steps : ∀ reached : Reached, reached.place.rest.length ≤ limit →
      Extends letter (step reached) (stepLonger (reached.extend letter)))
    (shorter : ∀ reached, ∀ next ∈ step reached, next.isBeyond reached = true →
      next.place.rest.length < reached.place.rest.length)
    {count : Nat} {reached : Reached} (bounded : reached.place.rest.length ≤ limit)
    (enough : reached.place.rest.length ≤ count) :
    Extends letter (repetition count reached) (repetitionLonger (count + 1) (reached.extend letter)) := by
  have starts := (steps reached bounded).filter_isBeyond reached
  -- less text is left behind each step, so neither count runs out before the text does
  induction count generalizing reached with
  | zero =>
      have nothing : (step reached).filter (·.isBeyond reached) = [] := by
        rw [List.filter_eq_nil_iff]
        intro next member beyond
        have less := shorter reached next member beyond
        omega
      rw [nothing] at starts
      rw [zero, succLonger]
      exact assembles reached _ _ (starts.flatMap (fun _ => []) nofun (behind 0))
  | succ count inductionHypothesis =>
      rw [succ, succLonger]
      apply assembles
      refine starts.flatMap _ (fun start member => ?_) (behind (count + 1))
      obtain ⟨isStep, beyond⟩ := List.mem_filter.mp member
      have less := shorter reached start isStep beyond
      have fewer : start.place.rest.length ≤ limit := by omega
      exact inductionHypothesis fewer (by omega) ((steps start fewer).filter_isBeyond start)

end Extends

end Reached

namespace Pattern

variable {pattern : Pattern} {reached next : Reached} {limit : Nat}

/-- Whether the pattern asks for the end of the text. -/
def asksForEnd : Pattern → Bool
  | atEnd => true
  | sequence first second | choice first second => first.asksForEnd || second.asksForEnd
  | many body | few body | group _ body => body.asksForEnd
  | empty | one _ | atStart | atWordEdge => false

theorem Runs.hasMore_eq_false (runs : Runs pattern reached next)
    (last : reached.hasMore = false) : next.hasMore = false := by
  rw [Reached.hasMore_eq_false_iff] at last ⊢
  obtain ⟨run, leads, _⟩ := runs.exists_leads
  have restEq := leads.rest_eq
  rw [last] at restEq
  exact (List.append_eq_nil_iff.mp restEq.symm).2

theorem Runs.length_rest_lt (runs : Runs pattern reached next)
    (beyond : next.isBeyond reached = true) :
    next.place.rest.length < reached.place.rest.length := by
  rcases runs.place_eq_or_lt with stays | ⟨_, less⟩
  · rw [Reached.isBeyond, stays, decide_eq_true_eq] at beyond
    exact absurd beyond (Nat.lt_irrefl _)
  · exact less

theorem Runs.length_rest_le (runs : Runs pattern reached next) :
    next.place.rest.length ≤ reached.place.rest.length := by
  rcases runs.place_eq_or_lt with stays | ⟨_, less⟩
  · exact Nat.le_of_eq (congrArg (fun place => place.rest.length) stays)
  · exact Nat.le_of_lt less

/-- Only the place behind the new character is farther away than the end of the old text. -/
theorem Runs.hasMore_eq_isNear (runs : Runs pattern (reached.extend letter) next) :
    next.hasMore = Reached.isNear reached.place.position (byteLength reached.place.rest) next := by
  obtain ⟨run, leads, _⟩ := runs.exists_leads
  have restEq : reached.place.rest ++ [letter] = run ++ next.place.rest := leads.rest_eq
  have positionEq : next.place.position = reached.place.position + byteLength run :=
    leads.position_eq
  have distanceEq : next.place.position - reached.place.position = byteLength run := by
    omega
  have sizePositive := letter.utf8Size_pos
  rw [Reached.hasMore, Reached.isNear, distanceEq]
  rcases List.eq_nil_or_concat next.place.rest with noRest | ⟨initial, last, restOf⟩
  · have whole := congrArg byteLength restEq
    rw [noRest, List.append_nil, byteLength_append, byteLength_cons, byteLength_nil] at whole
    rw [noRest, decide_eq_false (by omega)]
    rfl
  · rw [restOf, List.concat_eq_append, ← List.append_assoc] at restEq
    have inside := congrArg byteLength (List.append_inj' restEq rfl).1
    rw [byteLength_append] at inside
    rw [restOf, List.concat_eq_append, decide_eq_true (by omega), Bool.not_eq_true',
      List.isEmpty_eq_false_iff]
    exact List.concat_ne_nil _ _

theorem extends_ends_one (accepts : Char → Bool) :
    Reached.Extends letter (ends limit (one accepts) reached)
      (ends (limit + 1) (one accepts) (reached.extend letter)) := by
  have longer : (reached.extend letter).place.rest = reached.place.rest ++ [letter] := rfl
  rw [ends, ends, longer]
  cases reached.place.rest with
  | nil =>
      dsimp only [List.nil_append]
      split
      · rfl
      · exact .nil
  | cons found rest => exact .ite _ { reached with place := reached.place.after found rest }

/-- Besides the ends that the pattern had before it has only ends behind the new character. -/
theorem extends_ends (noWord : isWord letter = false) (noEnd : pattern.asksForEnd = false)
    (bounded : reached.place.rest.length ≤ limit) :
    Reached.Extends letter (ends limit pattern reached)
      (ends (limit + 1) pattern (reached.extend letter)) := by
  induction pattern generalizing reached with
  | empty => exact .singleton reached
  | one accepts => exact extends_ends_one accepts
  | sequence first second firstHypothesis secondHypothesis =>
      rw [asksForEnd, Bool.or_eq_false_iff] at noEnd
      rw [ends, ends, Reached.advance_eq_keepNew, Reached.advance_eq_keepNew]
      have both := (firstHypothesis noEnd.1 bounded).flatMap _ (fun start member =>
        secondHypothesis noEnd.2
          (Nat.le_trans (runs_of_mem_ends member).length_rest_le bounded))
        fun start last stop member => (runs_of_mem_ends member).hasMore_eq_false last
      refine both.keepNew (byteLength reached.place.rest) fun stop member => ?_
      obtain ⟨middle, middleMember, stopMember⟩ := List.mem_flatMap.mp member
      exact (Runs.sequence (runs_of_mem_ends middleMember)
        (runs_of_mem_ends stopMember)).hasMore_eq_isNear
  | choice preferred other preferredHypothesis otherHypothesis =>
      rw [asksForEnd, Bool.or_eq_false_iff] at noEnd
      exact (preferredHypothesis noEnd.1 bounded).append (otherHypothesis noEnd.2 bounded)
  | many body bodyHypothesis =>
      exact Reached.Extends.repetition (fun reached others => others ++ [reached])
        (fun count reached => Reached.repeatMany _ count reached [])
        (fun count reached => Reached.repeatMany _ count reached [])
        (fun _ => rfl) Reached.repeatMany_succ Reached.repeatMany_succ
        (fun reached _ _ others => others.append (.singleton reached))
        (fun _ _ last _ member =>
          (runs_of_mem_repeatMany runs_of_mem_ends member).hasMore_eq_false last)
        (fun _ => bodyHypothesis noEnd)
        (fun _ _ member => (runs_of_mem_ends member).length_rest_lt) bounded bounded
  | few body bodyHypothesis =>
      exact Reached.Extends.repetition (fun reached others => reached :: others)
        (fun count reached => Reached.repeatFew _ count reached [])
        (fun count reached => Reached.repeatFew _ count reached [])
        (fun _ => rfl) Reached.repeatFew_succ Reached.repeatFew_succ
        (fun reached _ _ others => (Reached.Extends.singleton reached).append others)
        (fun _ _ last _ member =>
          (runs_of_mem_repeatFew runs_of_mem_ends member).hasMore_eq_false last)
        (fun _ => bodyHypothesis noEnd)
        (fun _ _ member => (runs_of_mem_ends member).length_rest_lt) bounded bounded
  | group number body bodyHypothesis =>
      refine (bodyHypothesis noEnd bounded).map (fun next member => ?_) fun _ => rfl
      obtain ⟨run, leads, _⟩ := (runs_of_mem_ends member).exists_leads
      have sameSpan : (reached.extend letter).place.spanTo (next.extend letter).place =
          reached.place.spanTo next.place := leads.spanTo_extend letter
      rw [sameSpan]
      rfl
  | atStart => exact .ite _ reached
  | atEnd => cases noEnd
  | atWordEdge =>
      have sameEdge : (reached.extend letter).place.isWordEdge = reached.place.isWordEdge :=
        reached.place.isWordEdge_extend noWord
      rw [ends, ends, sameEdge]
      exact .ite _ reached

/-! ## Matches -/

/-- Every run of the pattern ends with a character that satisfies the test. -/
def ClosesWith (test : Char → Prop) : Pattern → Prop
  | one accepts => ∀ letter, accepts letter = true → test letter
  | sequence first second => second.ClosesWith test ∨ (second.IsCondition ∧ first.ClosesWith test)
  | choice first second => first.ClosesWith test ∧ second.ClosesWith test
  | group _ body => body.ClosesWith test
  | _ => False

theorem Runs.exists_leads_concat {test : Char → Prop} (runs : Runs pattern reached next)
    (closes : pattern.ClosesWith test) :
    ∃ run last, reached.place.Leads (run ++ [last]) next.place ∧ test last := by
  induction runs with
  | one follows accepted => exact ⟨[], _, .after follows, closes _ accepted⟩
  | sequence firstRuns secondRuns firstHypothesis secondHypothesis =>
      rcases closes with closesSecond | ⟨condition, closesFirst⟩
      · obtain ⟨run, leads, _⟩ := firstRuns.exists_leads
        obtain ⟨further, last, leadsFurther, passes⟩ := secondHypothesis closesSecond
        refine ⟨run ++ further, last, ?_, passes⟩
        rw [List.append_assoc]
        exact leads.trans leadsFurther
      · rw [secondRuns.eq_of_isCondition condition]
        exact firstHypothesis closesFirst
  | preferred _ hypothesis => exact hypothesis closes.1
  | other _ hypothesis => exact hypothesis closes.2
  | group _ hypothesis => exact hypothesis closes
  | _ => exact closes.elim

section Searches

variable (noWord : isWord letter = false) (noEnd : pattern.asksForEnd = false)
  (closes : pattern.ClosesWith (· ≠ letter))

include closes in
theorem matchAt?_of_rest_eq_nil {place : Place} (last : place.rest = []) :
    matchAt? pattern limit place = none := by
  rw [matchAt?, Option.map_eq_none_iff, List.head?_eq_none_iff, List.eq_nil_iff_forall_not_mem]
  intro stop member
  obtain ⟨run, letter, leads, _⟩ := (runs_of_mem_ends member).exists_leads_concat closes
  have restEq := leads.rest_eq
  rw [last] at restEq
  exact absurd (List.append_eq_nil_iff.mp restEq.symm).1 (List.concat_ne_nil _ _)

include noWord noEnd closes in
theorem matchAt?_extend (place : Place) (bounded : place.rest.length ≤ limit) :
    matchAt? pattern (limit + 1) (place.extend letter) = matchAt? pattern limit place := by
  have allMore : (ends (limit + 1) pattern ⟨place.extend letter, []⟩).filter Reached.hasMore =
      ends (limit + 1) pattern ⟨place.extend letter, []⟩ := by
    rw [List.filter_eq_self]
    intro stop member
    obtain ⟨run, last, leads, other⟩ := (runs_of_mem_ends member).exists_leads_concat closes
    have restEq : place.rest ++ [letter] = run ++ [last] ++ stop.place.rest := leads.rest_eq
    rw [Reached.hasMore, Bool.not_eq_true', List.isEmpty_eq_false_iff]
    intro noRest
    rw [noRest, List.append_nil] at restEq
    exact other (List.cons.inj (List.append_inj' restEq rfl).2).1.symm
  have boundedHere : (⟨place, []⟩ : Reached).place.rest.length ≤ limit := bounded
  have extended : Reached.Extends letter (ends limit pattern ⟨place, []⟩)
      (ends (limit + 1) pattern ⟨place.extend letter, []⟩) :=
    extends_ends noWord noEnd boundedHere
  rw [matchAt?, matchAt?, ← allMore, extended, List.head?_map, Option.map_map]
  cases endsEq : ends limit pattern ⟨place, []⟩ with
  | nil => rfl
  | cons first others =>
      have member : first ∈ ends limit pattern ⟨place, []⟩ := endsEq ▸ List.mem_cons_self
      obtain ⟨run, leads, _⟩ := (runs_of_mem_ends member).exists_leads
      have sameSpan : (place.extend letter).spanTo (first.extend letter).place =
          place.spanTo first.place := leads.spanTo_extend letter
      simp only [List.head?_cons, Option.map_some, Function.comp_apply, sameSpan]
      rfl

include noWord noEnd closes in
theorem searchAllFrom_append {free position : Nat} {before : Option Char} {rest : List Char}
    (bounded : rest.length ≤ limit) :
    searchAllFrom pattern (limit + 1) free before position (rest ++ [letter]) =
      searchAllFrom pattern limit free before position rest := by
  induction rest generalizing free before position with
  | nil =>
      have here : matchAt? pattern (limit + 1) ⟨before, position, [letter]⟩ = none := by
        have extended := matchAt?_extend noWord noEnd closes ⟨before, position, []⟩ bounded
        exact extended.trans (matchAt?_of_rest_eq_nil closes rfl)
      have behind : ∀ limit before position,
          matchAt? pattern limit ⟨before, position, []⟩ = none :=
        fun _ _ _ => matchAt?_of_rest_eq_nil closes rfl
      simp only [List.nil_append, searchAllFrom, here, behind, Option.toList_none, ite_self]
  | cons found rest inductionHypothesis =>
      have here : matchAt? pattern (limit + 1) ⟨before, position, found :: (rest ++ [letter])⟩ =
          matchAt? pattern limit ⟨before, position, found :: rest⟩ :=
        matchAt?_extend noWord noEnd closes ⟨before, position, found :: rest⟩ bounded
      have later : rest.length ≤ limit := Nat.le_of_succ_le bounded
      rw [List.cons_append, searchAllFrom, searchAllFrom, here]
      simp only [inductionHypothesis later]

include noWord noEnd closes in
/-- A character that the pattern does not end with, put at the end of a text, leaves the matches as
they are. -/
theorem searchAll_append (letters : List Char) :
    pattern.searchAll (letters ++ [letter]) = pattern.searchAll letters := by
  rw [searchAll, searchAll, List.length_append]
  exact searchAllFrom_append noWord noEnd closes (Nat.le_refl _)

end Searches

end Pattern

end ScriptLint.Text
