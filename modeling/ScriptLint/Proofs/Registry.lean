import ScriptLint.Registry
import Mathlib.Data.List.Basic
import Mathlib.Data.List.Nodup

/-!
# Registration

Registering a rule either replaces the one rule of its identifier where it stands or puts the rule
at the end, so no identifier is ever listed twice. Rules with distinct identifiers are therefore
listed in the order in which they were registered; the rules of the catalogue are such rules.
-/

namespace ScriptLint.Registry

/-- A rule with a new identifier is put at the end. -/
theorem place_eq_append {rule : Rule} {rules : List Rule} (new : rule.id ∉ rules.map (·.id)) :
    place rule rules = rules ++ [rule] := by
  induction rules with
  | nil => rfl
  | cons present rest inductionHypothesis =>
      rw [List.map_cons, List.mem_cons, not_or] at new
      have different : present.id ≠ rule.id := fun same => new.1 same.symm
      rw [place, if_neg different, inductionHypothesis new.2, List.cons_append]

/-- A rule with a known identifier takes the place of the first rule that has it. -/
theorem place_append_cons {rule present : Rule} {before after : List Rule}
    (first : rule.id ∉ before.map (·.id)) (same : present.id = rule.id) :
    place rule (before ++ present :: after) = before ++ rule :: after := by
  induction before with
  | nil => rw [List.nil_append, place, if_pos same, List.nil_append]
  | cons earlier others inductionHypothesis =>
      rw [List.map_cons, List.mem_cons, not_or] at first
      have different : earlier.id ≠ rule.id := fun taken => first.1 taken.symm
      rw [List.cons_append, place, if_neg different, inductionHypothesis first.2, List.cons_append]

theorem map_id_place {rule : Rule} {rules : List Rule} (listed : rule.id ∈ rules.map (·.id)) :
    (place rule rules).map (·.id) = rules.map (·.id) := by
  induction rules with
  | nil => exact absurd listed List.not_mem_nil
  | cons first rest inductionHypothesis =>
      by_cases here : first.id = rule.id
      · rw [place, if_pos here, List.map_cons, List.map_cons, here]
      · have later : rule.id ∈ rest.map (·.id) :=
          (List.mem_cons.mp listed).resolve_left fun same => here same.symm
        rw [place, if_neg here, List.map_cons, List.map_cons, inductionHypothesis later]

/-- Registering a rule adds its identifier at the end, unless it is listed already. -/
theorem ids_register (registry : Registry) (rule : Rule) :
    (registry.register rule).ids =
      if rule.id ∈ registry.ids then registry.ids else registry.ids ++ [rule.id] := by
  by_cases listed : rule.id ∈ registry.ids
  · rw [if_pos listed]
    exact map_id_place listed
  · rw [if_neg listed, ids, register, place_eq_append listed, List.map_append]
    rfl

theorem nodup_ids_register {registry : Registry} (distinct : registry.ids.Nodup) (rule : Rule) :
    (registry.register rule).ids.Nodup := by
  rw [ids_register]
  split
  · exact distinct
  · next new =>
      rw [← List.concat_eq_append]
      exact distinct.concat new

/-- Registration never lists an identifier twice. -/
theorem nodup_ids_registerAll {registry : Registry} (distinct : registry.ids.Nodup)
    (rules : List Rule) : (registry.registerAll rules).ids.Nodup := by
  induction rules generalizing registry with
  | nil => exact distinct
  | cons rule rest inductionHypothesis => exact inductionHypothesis (nodup_ids_register distinct rule)

/-- Rules with distinct new identifiers are listed in the order of their registration. -/
theorem rules_registerAll {registry : Registry} {rules : List Rule}
    (distinct : (registry.ids ++ rules.map (·.id)).Nodup) :
    (registry.registerAll rules).rules = registry.rules ++ rules := by
  induction rules generalizing registry with
  | nil => exact (List.append_nil _).symm
  | cons rule rest inductionHypothesis =>
      rw [List.map_cons] at distinct
      have new : rule.id ∉ registry.ids := by
        intro listed
        exact List.disjoint_of_nodup_append distinct listed List.mem_cons_self
      have placed : (registry.register rule).rules = registry.rules ++ [rule] :=
        place_eq_append new
      have distinctRest : ((registry.register rule).ids ++ rest.map (·.id)).Nodup := by
        rw [ids_register, if_neg new, List.append_assoc]
        exact distinct
      calc (registry.registerAll (rule :: rest)).rules
          = ((registry.register rule).registerAll rest).rules := rfl
        _ = (registry.register rule).rules ++ rest := inductionHypothesis distinctRest
        _ = registry.rules ++ rule :: rest := by rw [placed, List.append_assoc]; rfl

theorem rules_builtin : builtin.rules = catalogue := by
  have distinct : (({} : Registry).ids ++ catalogue.map (·.id)).Nodup := by
    decide
  exact rules_registerAll distinct

end ScriptLint.Registry
