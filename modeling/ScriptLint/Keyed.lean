/-!
# Entries sorted by key

A finite map from text keys is a list of entries in ascending order of their keys. Keys compare by
code point, which is also the order of their UTF-8 encodings. Inserting an entry keeps the order and
replaces an entry of the same key, so the last insertion wins and enumeration does not depend on the
order of the insertions.
-/

namespace ScriptLint.Keyed

variable {α : Type}

def find? (entries : List (String × α)) (key : String) : Option α :=
  (entries.find? fun entry => entry.1 == key).map (·.2)

def insert (key : String) (value : α) : List (String × α) → List (String × α)
  | [] => [(key, value)]
  | entry :: rest =>
      if key = entry.1 then (key, value) :: rest
      else if key < entry.1 then (key, value) :: entry :: rest
      else entry :: insert key value rest

/-- The entries after insertion one by one. -/
def ofList (pairs : List (String × α)) : List (String × α) :=
  pairs.foldl (fun entries pair => insert pair.1 pair.2 entries) []

def keys (entries : List (String × α)) : List String := entries.map (·.1)

@[simp]
theorem find?_nil (key : String) : find? ([] : List (String × α)) key = none := rfl

theorem find?_cons (entry : String × α) (rest : List (String × α)) (key : String) :
    find? (entry :: rest) key = if entry.1 = key then some entry.2 else find? rest key := by
  unfold find?
  by_cases same : entry.1 = key <;> simp [same]

theorem find?_insert_self (key : String) (value : α) (entries : List (String × α)) :
    find? (insert key value entries) key = some value := by
  induction entries with
  | nil => simp [insert, find?_cons]
  | cons entry rest hypothesis =>
      unfold insert
      split
      · simp [find?_cons]
      · next different =>
          split
          · simp [find?_cons]
          · rw [find?_cons, if_neg (Ne.symm different), hypothesis]

theorem find?_insert_of_ne {key other : String} (different : other ≠ key) (value : α)
    (entries : List (String × α)) :
    find? (insert key value entries) other = find? entries other := by
  induction entries with
  | nil => simp [insert, find?_cons, different.symm]
  | cons entry rest hypothesis =>
      unfold insert
      split
      · next same =>
          rw [find?_cons, find?_cons, if_neg different.symm, if_neg (same ▸ different.symm)]
      · split
        · rw [find?_cons, if_neg different.symm]
        · rw [find?_cons, find?_cons, hypothesis]

end ScriptLint.Keyed
