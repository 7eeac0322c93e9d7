import ScriptLint.Keyed
import Mathlib.Data.List.Induction
import Mathlib.Data.String.Basic

/-!
# The order of keyed entries

Insertion keeps the keys in strictly ascending order and adds no key but its own, so the entries
that come from a list of pairs ascend and have the keys of the pairs. Entries that ascend come from
themselves: putting them in one after the other gives them back.
-/

namespace ScriptLint.Keyed

variable {α : Type} {key : String} {value : α} {entries : List (String × α)}

/-- The keys ascend, so that none of them is there twice. -/
def IsAscending (entries : List (String × α)) : Prop :=
  entries.Pairwise fun first second => first.1 < second.1

theorem mem_of_find? (found : find? entries key = some value) : (key, value) ∈ entries := by
  induction entries with
  | nil => cases found
  | cons first rest inductionHypothesis =>
      rw [find?_cons] at found
      split at found
      · next same =>
          cases found
          exact same ▸ List.mem_cons_self
      · exact List.mem_cons_of_mem first (inductionHypothesis found)

theorem keys_map {β : Type} (convert : α → β) (entries : List (String × α)) :
    keys (entries.map fun entry => (entry.1, convert entry.2)) = keys entries := by
  rw [keys, keys, List.map_map]
  rfl

theorem find?_map {β : Type} (convert : α → β) (entries : List (String × α)) (key : String) :
    find? (entries.map fun entry => (entry.1, convert entry.2)) key =
      (find? entries key).map convert := by
  induction entries with
  | nil => rfl
  | cons first rest inductionHypothesis =>
      rw [List.map_cons, find?_cons, find?_cons, inductionHypothesis]
      by_cases same : first.1 = key <;> simp [same]

theorem isAscending_map {β : Type} (convert : α → β) (ascending : IsAscending entries) :
    IsAscending (entries.map fun entry => (entry.1, convert entry.2)) :=
  List.pairwise_map.mpr ascending

theorem pairwise_keys (ascending : IsAscending entries) : (keys entries).Pairwise (· < ·) :=
  List.pairwise_map.mpr ascending

/-! ## Insertion -/

theorem mem_of_mem_insert {entry : String × α} (member : entry ∈ insert key value entries) :
    entry = (key, value) ∨ entry ∈ entries := by
  induction entries with
  | nil => exact .inl (List.mem_singleton.mp member)
  | cons first rest inductionHypothesis =>
      unfold insert at member
      split at member
      · exact (List.mem_cons.mp member).imp_right (List.mem_cons_of_mem first)
      · split at member
        · exact List.mem_cons.mp member
        · rcases List.mem_cons.mp member with rfl | later
          · exact .inr List.mem_cons_self
          · exact (inductionHypothesis later).imp_right (List.mem_cons_of_mem first)

theorem mem_keys_insert {other : String} :
    other ∈ keys (insert key value entries) ↔ other = key ∨ other ∈ keys entries := by
  induction entries with
  | nil => simp [insert, keys]
  | cons first rest inductionHypothesis =>
      simp only [keys] at inductionHypothesis ⊢
      unfold insert
      split
      · next same => simp [same]
      · split
        · simp
        · simp only [List.map_cons, List.mem_cons, inductionHypothesis]
          exact or_left_comm

theorem isAscending_insert (ascending : IsAscending entries) :
    IsAscending (insert key value entries) := by
  induction entries with
  | nil => exact List.pairwise_singleton _ _
  | cons first rest inductionHypothesis =>
      obtain ⟨below, ascendingRest⟩ := List.pairwise_cons.mp ascending
      unfold insert
      split
      · next same => exact List.pairwise_cons.mpr ⟨same ▸ below, ascendingRest⟩
      · next different =>
          split
          · next before =>
              refine List.pairwise_cons.mpr ⟨fun entry member => ?_, ascending⟩
              rcases List.mem_cons.mp member with rfl | later
              · exact before
              · exact lt_trans before (below entry later)
          · next notBefore =>
              have after : first.1 < key := lt_of_le_of_ne (not_lt.mp notBefore) (Ne.symm different)
              refine List.pairwise_cons.mpr
                ⟨fun entry member => ?_, inductionHypothesis ascendingRest⟩
              rcases mem_of_mem_insert member with rfl | later
              · exact after
              · exact below entry later

/-- A key above all others is put at the end. -/
theorem insert_eq_append (above : ∀ entry ∈ entries, entry.1 < key) :
    insert key value entries = entries ++ [(key, value)] := by
  induction entries with
  | nil => rfl
  | cons first rest inductionHypothesis =>
      rw [List.forall_mem_cons] at above
      rw [insert, if_neg above.1.ne', if_neg above.1.not_gt, inductionHypothesis above.2,
        List.cons_append]

/-! ## Entries from a list of pairs -/

theorem ofList_append_singleton (pairs : List (String × α)) (pair : String × α) :
    ofList (pairs ++ [pair]) = insert pair.1 pair.2 (ofList pairs) :=
  List.foldl_append

/-- Of several pairs with one key the last one wins. -/
theorem find?_ofList (pairs : List (String × α)) (key : String) :
    find? (ofList pairs) key = find? pairs.reverse key := by
  induction pairs using List.reverseRecOn with
  | nil => rfl
  | append_singleton pairs pair inductionHypothesis =>
      rw [ofList_append_singleton, List.reverse_append, List.reverse_singleton,
        List.singleton_append, find?_cons]
      by_cases same : pair.1 = key
      · rw [if_pos same, ← same, find?_insert_self]
      · rw [if_neg same, find?_insert_of_ne (Ne.symm same), inductionHypothesis]

theorem isAscending_ofList (pairs : List (String × α)) : IsAscending (ofList pairs) := by
  induction pairs using List.reverseRecOn with
  | nil => exact List.Pairwise.nil
  | append_singleton pairs pair inductionHypothesis =>
      rw [ofList_append_singleton]
      exact isAscending_insert inductionHypothesis

theorem mem_of_mem_ofList {pairs : List (String × α)} {entry : String × α}
    (member : entry ∈ ofList pairs) : entry ∈ pairs := by
  induction pairs using List.reverseRecOn with
  | nil => exact member
  | append_singleton pairs pair inductionHypothesis =>
      rw [ofList_append_singleton] at member
      rcases mem_of_mem_insert member with rfl | earlier
      · exact List.mem_append_right pairs List.mem_cons_self
      · exact List.mem_append_left [pair] (inductionHypothesis earlier)

theorem mem_keys_ofList {pairs : List (String × α)} :
    key ∈ keys (ofList pairs) ↔ key ∈ keys pairs := by
  induction pairs using List.reverseRecOn with
  | nil => rfl
  | append_singleton pairs pair inductionHypothesis =>
      rw [ofList_append_singleton, mem_keys_insert, inductionHypothesis]
      simp only [keys, List.map_append, List.map_cons, List.map_nil, List.mem_append,
        List.mem_singleton]
      exact or_comm

theorem ofList_eq_self (ascending : IsAscending entries) : ofList entries = entries := by
  induction entries using List.reverseRecOn with
  | nil => rfl
  | append_singleton before last inductionHypothesis =>
      obtain ⟨ascendingBefore, _, below⟩ := List.pairwise_append.mp ascending
      rw [ofList_append_singleton, inductionHypothesis ascendingBefore]
      exact insert_eq_append fun entry member => below entry member last List.mem_cons_self

end ScriptLint.Keyed
