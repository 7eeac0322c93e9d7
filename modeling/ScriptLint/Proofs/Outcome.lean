import Mathlib.Data.List.Forall2

/-!
# Steps that have succeeded

What the success of a chain of steps says about each of them.
-/

namespace ScriptLint

theorem exists_of_bind_eq_ok {ε α β : Type} {outcome : Except ε α} {next : α → Except ε β}
    {result : β} (succeeded : outcome >>= next = .ok result) :
    ∃ value, outcome = .ok value ∧ next value = .ok result := by
  cases outcome with
  | error failure => cases succeeded
  | ok value => exact ⟨value, rfl, succeeded⟩

theorem exists_of_mapError_eq_ok {ε φ α : Type} {outcome : Except ε α} {convert : ε → φ}
    {result : α} (succeeded : outcome.mapError convert = .ok result) : outcome = .ok result := by
  cases outcome with
  | error failure => cases succeeded
  | ok value =>
      cases succeeded
      rfl

/-- The results of a step that may fail are those of the items in their order. -/
theorem forall₂_of_mapM {ε α β : Type} {step : α → Except ε β} {items : List α} {results : List β}
    (succeeded : items.mapM step = .ok results) :
    List.Forall₂ (fun item result => step item = .ok result) items results := by
  induction items generalizing results with
  | nil =>
      cases succeeded
      exact .nil
  | cons first rest inductionHypothesis =>
      rw [List.mapM_cons] at succeeded
      obtain ⟨result, firstEq, further⟩ := exists_of_bind_eq_ok succeeded
      obtain ⟨others, restEq, same⟩ := exists_of_bind_eq_ok further
      cases same
      exact .cons firstEq (inductionHypothesis restEq)

/-- Steps of which each gives a result give the list of the results. -/
theorem mapM_eq_ok {ε α β : Type} {step : α → Except ε β} {result : α → β} {items : List α}
    (each : ∀ item ∈ items, step item = .ok (result item)) :
    items.mapM step = .ok (items.map result) := by
  induction items with
  | nil => rfl
  | cons first rest inductionHypothesis =>
      rw [List.forall_mem_cons] at each
      rw [List.mapM_cons, each.1, inductionHypothesis each.2]
      rfl

/-- Items that have moved give results that have moved. -/
theorem mapM_map_eq {ε α β α' β' : Type} {step : α → Except ε β} {other : α' → Except ε β'}
    {move : α → α'} {record : β → β'} {items : List α}
    (each : ∀ item ∈ items, other (move item) = (step item).map record) :
    (items.map move).mapM other = (items.mapM step).map (List.map record) := by
  induction items with
  | nil => rfl
  | cons first rest inductionHypothesis =>
      rw [List.forall_mem_cons] at each
      rw [List.map_cons, List.mapM_cons, List.mapM_cons, each.1, inductionHypothesis each.2]
      cases step first with
      | error failure => rfl
      | ok result =>
          cases rest.mapM step with
          | error failure => rfl
          | ok results => rfl

theorem exists_of_mem_mapM {ε α β : Type} {step : α → Except ε β} {items : List α}
    {results : List β} {result : β} (succeeded : items.mapM step = .ok results)
    (member : result ∈ results) : ∃ item ∈ items, step item = .ok result := by
  have each := forall₂_of_mapM succeeded
  clear succeeded
  induction each with
  | nil => exact absurd member List.not_mem_nil
  | cons firstEq _ inductionHypothesis =>
      rcases List.mem_cons.mp member with rfl | later
      · exact ⟨_, List.mem_cons_self, firstEq⟩
      · obtain ⟨item, itemMember, itemEq⟩ := inductionHypothesis later
        exact ⟨item, List.mem_cons_of_mem _ itemMember, itemEq⟩

theorem exists_result_of_mapM {ε α β : Type} {step : α → Except ε β} {items : List α}
    {results : List β} {item : α} (succeeded : items.mapM step = .ok results)
    (member : item ∈ items) : ∃ result ∈ results, step item = .ok result := by
  have each := forall₂_of_mapM succeeded
  clear succeeded
  induction each with
  | nil => exact absurd member List.not_mem_nil
  | cons firstEq _ inductionHypothesis =>
      rcases List.mem_cons.mp member with rfl | later
      · exact ⟨_, List.mem_cons_self, firstEq⟩
      · obtain ⟨result, resultMember, resultEq⟩ := inductionHypothesis later
        exact ⟨result, List.mem_cons_of_mem _ resultMember, resultEq⟩

/-- The steps for all items succeed together exactly if each of them does. -/
theorem exists_mapM_iff {ε α β : Type} {step : α → Except ε β} {items : List α} :
    (∃ results, items.mapM step = .ok results) ↔
      ∀ item ∈ items, ∃ result, step item = .ok result := by
  constructor
  · rintro ⟨results, succeeded⟩ item member
    obtain ⟨result, -, itemEq⟩ := exists_result_of_mapM succeeded member
    exact ⟨result, itemEq⟩
  · intro each
    induction items with
    | nil => exact ⟨[], rfl⟩
    | cons first rest inductionHypothesis =>
        rw [List.forall_mem_cons] at each
        obtain ⟨result, firstEq⟩ := each.1
        obtain ⟨results, restEq⟩ := inductionHypothesis each.2
        refine ⟨result :: results, ?_⟩
        rw [List.mapM_cons, firstEq, restEq]
        rfl

end ScriptLint
