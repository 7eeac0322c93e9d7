import ScriptLint.Keyed
import ScriptLint.Proofs.Registry

/-!
# Finding rules

After any registrations a rule is found under its identifier as it was registered last, and it
stands where the identifier is listed. A table of these places saves the search. Every registration
can keep such a table in step with the rules, and a registry that looks rules up in it gives the
same answers.
-/

namespace ScriptLint

/-- The registry lists and finds what a sequence of registrations says: each identifier once, where
it first occurs, and under each identifier the rule that came last. -/
structure Registry.Records (registry : Registry) (registered : List Rule) : Prop where
  ids_nodup : registry.ids.Nodup
  ids_eq : registry.ids = (registered.map (·.id)).eraseDups
  get?_eq : ∀ id, registry.get? id = registered.reverse.find? fun rule => rule.id == id
  rules_place : ∀ id, registry.rules[registry.ids.idxOf id]? = registry.get? id
  has_iff : ∀ id, registry.has id = true ↔ ∃ rule, registry.get? id = some rule
  get?_eq_none : ∀ id, id ∉ registered.map (·.id) → registry.get? id = none

/-- Rules together with a table of the places at which their identifiers stand. -/
structure IndexedRegistry where
  rules : List Rule := []
  places : List (String × Nat) := []

namespace IndexedRegistry

/-- Registers a rule: at the place of its identifier, or at the end, which becomes its place. -/
def register (registry : IndexedRegistry) (rule : Rule) : IndexedRegistry :=
  match Keyed.find? registry.places rule.id with
  | some place => { registry with rules := registry.rules.set place rule }
  | none =>
      { rules := registry.rules ++ [rule]
        places := Keyed.insert rule.id registry.rules.length registry.places }

def registerAll (registry : IndexedRegistry) (rules : List Rule) : IndexedRegistry :=
  rules.foldl register registry

def builtin : IndexedRegistry := ({} : IndexedRegistry).registerAll Registry.catalogue

/-- The rule at the place of an identifier. -/
def get? (registry : IndexedRegistry) (id : String) : Option Rule :=
  (Keyed.find? registry.places id).bind (registry.rules[·]?)

def has (registry : IndexedRegistry) (id : String) : Bool :=
  (Keyed.find? registry.places id).isSome

/-- The rules are those of the registry, and the table gives for every identifier the place at which
the registry lists it, and for nothing else a place. -/
structure Represents (indexed : IndexedRegistry) (registry : Registry) : Prop where
  rules_eq : indexed.rules = registry.rules
  places_iff : ∀ id place,
    Keyed.find? indexed.places id = some place ↔ registry.ids[place]? = some id

/-- The registry with the table gives the answers of the one that it represents. -/
structure AnswersLike (indexed : IndexedRegistry) (registry : Registry) : Prop
    extends indexed.Represents registry where
  get?_eq : ∀ id, indexed.get? id = registry.get? id
  has_eq : ∀ id, indexed.has id = registry.has id

end IndexedRegistry

namespace Registry

variable {registry : Registry} {registered : List Rule} {rule : Rule}

/-! ## One registration -/

theorem eraseDups_append_singleton (names : List String) (name : String) :
    (names ++ [name]).eraseDups =
      if name ∈ names then names.eraseDups else names.eraseDups ++ [name] := by
  rw [List.eraseDups_append]
  by_cases earlier : name ∈ names
  · simp [List.removeAll, earlier]
  · have kept : [name].removeAll names = [name] := by
      simp [List.removeAll, earlier]
    rw [if_neg earlier, kept]
    rfl

theorem get?_register (registry : Registry) (rule : Rule) (id : String) :
    (registry.register rule).get? id = if rule.id = id then some rule else registry.get? id := by
  simp only [get?, register]
  induction registry.rules with
  | nil => by_cases asked : rule.id = id <;> simp [place, asked]
  | cons present rest inductionHypothesis =>
      by_cases same : present.id = rule.id
      · rw [place, if_pos same]
        by_cases asked : rule.id = id <;> simp [same, asked]
      · rw [place, if_neg same]
        by_cases here : present.id = id
        · have notRule : rule.id ≠ id := fun asked => same (here.trans asked.symm)
          simp [here, notRule]
        · simpa [here] using inductionHypothesis

/-- Looking an identifier up in the list of identifiers finds the place of its rule. -/
theorem rules_idxOf (registry : Registry) (id : String) :
    registry.rules[registry.ids.idxOf id]? = registry.get? id := by
  rw [ids, List.idxOf, List.findIdx_map, get?, List.find?_eq_getElem?_findIdx]
  rfl

theorem get?_eq_none_of_not_mem {id : String} (unlisted : id ∉ registry.ids) :
    registry.get? id = none := by
  rw [← rules_idxOf, List.idxOf_eq_length unlisted, ids, List.length_map,
    List.getElem?_eq_none (Nat.le_refl _)]

theorem has_iff_exists (registry : Registry) (id : String) :
    registry.has id = true ↔ ∃ rule, registry.get? id = some rule :=
  Option.isSome_iff_exists

theorem Records.register (records : registry.Records registered) (rule : Rule) :
    (registry.register rule).Records (registered ++ [rule]) := by
  have idsEq : (registry.register rule).ids = ((registered ++ [rule]).map (·.id)).eraseDups := by
    rw [ids_register, List.map_append, List.map_singleton, eraseDups_append_singleton,
      ← records.ids_eq]
    have listed : rule.id ∈ registry.ids ↔ rule.id ∈ registered.map (·.id) := by
      rw [records.ids_eq, List.mem_eraseDups]
    simp only [listed]
  have getEq : ∀ id, (registry.register rule).get? id =
      (registered ++ [rule]).reverse.find? fun rule => rule.id == id := by
    intro id
    rw [get?_register, List.reverse_append, List.reverse_singleton, List.singleton_append,
      records.get?_eq]
    by_cases asked : rule.id = id <;> simp [asked]
  constructor
  case ids_nodup => exact nodup_ids_register records.ids_nodup rule
  case ids_eq => exact idsEq
  case get?_eq => exact getEq
  case rules_place => exact rules_idxOf _
  case has_iff => exact has_iff_exists _
  case get?_eq_none =>
    intro id never
    apply get?_eq_none_of_not_mem
    rwa [idsEq, List.mem_eraseDups]

theorem records_nil : ({} : Registry).Records [] where
  ids_nodup := List.nodup_nil
  ids_eq := rfl
  get?_eq _ := rfl
  rules_place _ := rfl
  has_iff := has_iff_exists _
  get?_eq_none _ _ := rfl

theorem Records.registerAll (records : registry.Records registered) (rules : List Rule) :
    (registry.registerAll rules).Records (registered ++ rules) := by
  induction rules generalizing registry registered with
  | nil =>
      rw [List.append_nil]
      exact records
  | cons rule rest inductionHypothesis =>
      have further := inductionHypothesis (records.register rule)
      rwa [List.append_assoc] at further

/-! ## The table of places -/

/-- Where the identifiers are distinct, replacing a rule is setting it at its place. -/
theorem place_eq_set {rules : List Rule} {index : Nat} (distinct : (rules.map (·.id)).Nodup)
    (listed : (rules.map (·.id))[index]? = some rule.id) :
    place rule rules = rules.set index rule := by
  induction rules generalizing index with
  | nil => cases listed
  | cons present rest inductionHypothesis =>
      rw [List.map_cons] at distinct listed
      obtain ⟨new, distinctRest⟩ := List.nodup_cons.mp distinct
      cases index with
      | zero =>
          have same : present.id = rule.id := Option.some.inj listed
          rw [place, if_pos same, List.set_cons_zero]
      | succ index =>
          have later : (rest.map (·.id))[index]? = some rule.id := listed
          have different : present.id ≠ rule.id := fun same =>
            new (same ▸ List.mem_of_getElem? later)
          rw [place, if_neg different, inductionHypothesis distinctRest later, List.set_cons_succ]

theorem get?_eq_of_ids {id : String} {index : Nat} (distinct : registry.ids.Nodup)
    (listed : registry.ids[index]? = some id) : registry.get? id = registry.rules[index]? := by
  obtain ⟨within, found⟩ := List.getElem?_eq_some_iff.mp listed
  have isFirst : registry.ids.idxOf id = index := by
    rw [← found]
    exact distinct.idxOf_getElem index within
  rw [← rules_idxOf, isFirst]

end Registry

namespace IndexedRegistry

variable {indexed : IndexedRegistry} {registry : Registry}

theorem Represents.not_mem_ids (represents : indexed.Represents registry) {id : String}
    (found : Keyed.find? indexed.places id = none) : id ∉ registry.ids := by
  intro listed
  obtain ⟨place, placed⟩ := List.mem_iff_getElem?.mp listed
  rw [(represents.places_iff id place).mpr placed] at found
  cases found

theorem Represents.register (represents : indexed.Represents registry)
    (distinct : registry.ids.Nodup) (rule : Rule) :
    (indexed.register rule).Represents (registry.register rule) := by
  unfold IndexedRegistry.register
  cases found : Keyed.find? indexed.places rule.id with
  | some place =>
      have listed := (represents.places_iff rule.id place).mp found
      have sameIds : (registry.register rule).ids = registry.ids := by
        rw [Registry.ids_register, if_pos (List.mem_of_getElem? listed)]
      constructor
      case rules_eq =>
        rw [Registry.register, Registry.place_eq_set distinct listed, represents.rules_eq]
      case places_iff =>
        rw [sameIds]
        exact represents.places_iff
  | none =>
      have new := represents.not_mem_ids found
      have oneMore : (registry.register rule).ids = registry.ids ++ [rule.id] := by
        rw [Registry.ids_register, if_neg new]
      have sameLength : indexed.rules.length = registry.ids.length := by
        rw [represents.rules_eq, Registry.ids, List.length_map]
      constructor
      case rules_eq =>
        rw [Registry.register, Registry.place_eq_append new, represents.rules_eq]
      case places_iff =>
        intro id place
        rw [oneMore, sameLength]
        by_cases isNew : id = rule.id
        · subst isNew
          rw [Keyed.find?_insert_self, Option.some.injEq]
          constructor
          · rintro rfl
            exact List.getElem?_concat_length
          · intro placed
            rw [List.getElem?_append] at placed
            split at placed
            · exact absurd (List.mem_of_getElem? placed) new
            · have last : place - registry.ids.length < 1 :=
                (List.getElem?_eq_some_iff.mp placed).1
              omega
        · rw [Keyed.find?_insert_of_ne isNew, represents.places_iff, List.getElem?_append]
          split
          · rfl
          · next beyond =>
              rw [List.getElem?_eq_none (Nat.not_lt.mp beyond)]
              constructor
              · intro placed
                cases placed
              · intro placed
                exact absurd (List.mem_singleton.mp (List.mem_of_getElem? placed)) isNew

theorem Represents.registerAll (represents : indexed.Represents registry)
    (distinct : registry.ids.Nodup) (rules : List Rule) :
    (indexed.registerAll rules).Represents (registry.registerAll rules) := by
  induction rules generalizing indexed registry with
  | nil => exact represents
  | cons rule rest inductionHypothesis =>
      exact inductionHypothesis (represents.register distinct rule)
        (Registry.nodup_ids_register distinct rule)

theorem represents_nil : ({} : IndexedRegistry).Represents {} where
  rules_eq := rfl
  places_iff _ _ := by simp [Registry.ids]

/-- Rules that are looked up by their places are those that a search finds. -/
theorem Represents.answersLike (represents : indexed.Represents registry)
    (distinct : registry.ids.Nodup) : indexed.AnswersLike registry := by
  have answers : ∀ id,
      indexed.get? id = registry.get? id ∧ indexed.has id = registry.has id := by
    intro id
    unfold get? has Registry.has
    cases found : Keyed.find? indexed.places id with
    | some place =>
        have listed := (represents.places_iff id place).mp found
        have within : place < registry.rules.length := by
          simpa [Registry.ids] using (List.getElem?_eq_some_iff.mp listed).1
        rw [Registry.get?_eq_of_ids distinct listed, List.getElem?_eq_getElem within,
          Option.bind_some, represents.rules_eq, List.getElem?_eq_getElem within]
        exact ⟨rfl, rfl⟩
    | none =>
        rw [Registry.get?_eq_none_of_not_mem (represents.not_mem_ids found)]
        exact ⟨rfl, rfl⟩
  exact ⟨represents, fun id => (answers id).1, fun id => (answers id).2⟩

end IndexedRegistry

/-- However rules are registered, to begin with or behind those of the catalogue, every identifier
is listed once, in the order of first registration, and leads to the rule that was registered last
under it, which stands where the identifier is listed; other identifiers lead to no rule. A registry
that keeps the places of its rules in a table gives the same answers after the same registrations. -/
theorem registerAll_records (rules : List Rule) :
    (({} : Registry).registerAll rules).Records rules ∧
    (Registry.builtin.registerAll rules).Records (Registry.catalogue ++ rules) ∧
    (({} : IndexedRegistry).registerAll rules).AnswersLike (({} : Registry).registerAll rules) ∧
    (IndexedRegistry.builtin.registerAll rules).AnswersLike
      (Registry.builtin.registerAll rules) := by
  have fromEmpty : ∀ rules : List Rule, (({} : Registry).registerAll rules).Records rules :=
    Registry.records_nil.registerAll
  have tableFromEmpty : ∀ rules : List Rule,
      (({} : IndexedRegistry).registerAll rules).Represents (({} : Registry).registerAll rules) :=
    IndexedRegistry.represents_nil.registerAll List.nodup_nil
  have catalogueRecords : Registry.builtin.Records Registry.catalogue :=
    fromEmpty Registry.catalogue
  have fromCatalogue := catalogueRecords.registerAll rules
  have tableFromCatalogue : (IndexedRegistry.builtin.registerAll rules).Represents
      (Registry.builtin.registerAll rules) :=
    (tableFromEmpty Registry.catalogue).registerAll catalogueRecords.ids_nodup rules
  exact ⟨fromEmpty rules, fromCatalogue,
    (tableFromEmpty rules).answersLike (fromEmpty rules).ids_nodup,
    tableFromCatalogue.answersLike fromCatalogue.ids_nodup⟩

end ScriptLint
