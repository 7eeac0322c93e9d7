import ScriptLint.FileTree
import ScriptLint.Proofs.Outcome
import ScriptLint.Proofs.Path

/-!
# Names that lead into a file tree

What names lead to is found entry by entry. A path of names is looked up in the same way: from the
root if it begins with a slash, else from the current directory.
-/

namespace ScriptLint.FileTree

open ScriptLint.Path

/-- What names lead to. -/
def below? : FileTree → List (List Char) → Option FileTree
  | tree, [] => some tree
  | tree, name :: names => (tree.entry? name).bind (·.below? names)

/-- Whether the names lead to a file. -/
def HoldsFile (tree : FileTree) (names : List (List Char)) : Prop :=
  (tree.below? names).any isFile = true

instance (tree : FileTree) (names : List (List Char)) : Decidable (tree.HoldsFile names) :=
  inferInstanceAs (Decidable (_ = _))

variable {tree : FileTree} {name : List Char} {names : List (List Char)}

/-- Nothing lies below a file. -/
theorem below?_of_isFile (isFile : tree.isFile = true) (nonempty : names ≠ []) :
    tree.below? names = none := by
  obtain ⟨name, others, rfl⟩ := List.exists_cons_of_ne_nil nonempty
  cases tree with
  | file text => rfl
  | directory entries => exact absurd isFile Bool.false_ne_true

namespace Position

variable {position : Position}

/-- A name is no other piece, so its step looks the name up. -/
theorem toOption_step (isName : IsName name) (position : Position) :
    (position.step name).toOption = (position.current.entry? name).map
      fun inner => ⟨inner, position.current :: position.outer⟩ := by
  have notIdle := isName.isIdlePiece_eq_false
  rw [isIdlePiece] at notIdle
  rw [step, notIdle, beq_eq_false_iff_ne.mpr isName.ne_parent]
  cases kind : position.current with
  | file text => rfl
  | directory entries =>
      simp only [isFile, Bool.false_eq_true, if_false]
      cases entry? (directory entries) name <;> rfl

/-- The steps of names lead to what the names lead to. -/
theorem current_foldlM_step (areNames : AreNames names) (position : Position) :
    (names.foldlM step position).toOption.map (·.current) = position.current.below? names := by
  induction names generalizing position with
  | nil => rfl
  | cons name names inductionHypothesis =>
      rw [AreNames, List.forall_mem_cons] at areNames
      have first := toOption_step areNames.1 position
      rw [List.foldlM_cons, below?]
      cases found : position.current.entry? name with
      | none =>
          rw [found, Option.map_none] at first
          cases next : position.step name with
          | error reason => rfl
          | ok next => rw [next] at first; cases first
      | some inner =>
          rw [found, Option.map_some] at first
          cases next : position.step name with
          | error reason => rw [next] at first; cases first
          | ok next =>
              rw [next] at first
              cases first
              exact inductionHypothesis areNames.2 _

theorem isEmpty_ofNames (nonempty : names ≠ []) (areNames : AreNames names) :
    (ofNames names).isEmpty = false :=
  List.isEmpty_eq_false_iff.mpr (ofNames_ne_nil nonempty areNames)

/-- The position of a relative path of names is looked up from the current directory on. -/
theorem resolve_ofNames (nonempty : names ≠ []) (areNames : AreNames names)
    (position : Position) : position.resolve (ofNames names) = names.foldlM step position := by
  rw [resolve, isEmpty_ofNames nonempty areNames, isAbsolute_ofNames areNames,
    splitOn_ofNames nonempty areNames]
  rfl

/-- A dot in front of a path of names stays in the current directory. -/
theorem resolve_current_ofNames (nonempty : names ≠ []) (areNames : AreNames names)
    (isDirectory : position.current.isFile = false) :
    position.resolve ('.' :: '/' :: ofNames names) = position.resolve (ofNames names) := by
  have stays : position.step ['.'] = .ok position := by
    rw [step, isDirectory]
    rfl
  have relative : isAbsolute ('.' :: '/' :: ofNames names) = false := rfl
  have shown : ('.' :: '/' :: ofNames names).isEmpty = false := rfl
  rw [resolve_ofNames nonempty areNames, resolve, shown, relative,
    splitOn_current_ofNames nonempty areNames]
  simp only [Bool.false_eq_true, if_false, List.foldlM_cons, stays]
  rfl

/-- An absolute path of names is looked up at the root. -/
theorem get?_fromRoot (nonempty : names ≠ []) (areNames : AreNames names) (position : Position) :
    position.get? (fromRoot names) = position.top.current.below? names := by
  have absolute : isAbsolute (fromRoot names) = true := rfl
  have shown : (fromRoot names).isEmpty = false := rfl
  rw [get?, resolve, shown, absolute, fromRoot, Text.splitOn_cons_self,
    splitOn_ofNames nonempty areNames, List.foldlM_cons]
  cases kind : position.top.current.isFile with
  | true =>
      -- the empty piece in front of the slash asks for a directory
      have refused : position.top.step [] = .error .notDirectory := if_pos kind
      simp only [Bool.false_eq_true, if_false, if_true, refused]
      exact (below?_of_isFile kind nonempty).symm
  | false =>
      have stays : position.top.step [] = .ok position.top := by
        rw [step, kind]
        rfl
      simp only [Bool.false_eq_true, if_false, if_true, stays]
      exact current_foldlM_step areNames position.top

theorem hasFile_fromRoot (nonempty : names ≠ []) (areNames : AreNames names)
    (position : Position) :
    position.hasFile (fromRoot names) = true ↔ position.top.current.HoldsFile names := by
  rw [hasFile, get?_fromRoot nonempty areNames, HoldsFile]

/-- What is a file is no directory. -/
theorem hasDirectory_eq_false {path : List Char} (isFile : position.hasFile path = true) :
    position.hasDirectory path = false := by
  rw [hasFile] at isFile
  rw [hasDirectory]
  cases found : position.get? path with
  | none => rfl
  | some inner =>
      rw [found, Option.any_some] at isFile
      rw [Option.any_some, isDirectory, isFile, Bool.not_true]

end Position

/-! ## Trees in which every entry has a name of its own -/

/-- The entries of every directory have names, and no two of one directory have the same. -/
inductive WellNamed : FileTree → Prop where
  | file (text : Option (List Char)) : WellNamed (.file text)
  | directory {entries : List (List Char × FileTree)}
      (areNames : ∀ entry ∈ entries, IsName entry.1) (distinct : (entries.map (·.1)).Nodup)
      (inner : ∀ entry ∈ entries, WellNamed entry.2) : WellNamed (.directory entries)

namespace WellNamed

theorem isName_of_mem (wellNamed : tree.WellNamed) {entry : List Char × FileTree}
    (member : entry ∈ tree.entries) : IsName entry.1 := by
  cases wellNamed with
  | file text => exact absurd member List.not_mem_nil
  | directory areNames _ _ => exact areNames entry member

theorem of_mem (wellNamed : tree.WellNamed) {entry : List Char × FileTree}
    (member : entry ∈ tree.entries) : entry.2.WellNamed := by
  cases wellNamed with
  | file text => exact absurd member List.not_mem_nil
  | directory _ _ inner => exact inner entry member

end WellNamed

theorem mem_entries_of_lookup {inner : FileTree} (found : tree.entry? name = some inner) :
    (name, inner) ∈ tree.entries := by
  obtain ⟨earlier, later, shape, -⟩ := List.lookup_eq_some_iff.mp found
  rw [shape]
  exact List.mem_append_right _ List.mem_cons_self

/-- An entry with a name of its own is found by that name. -/
theorem entry?_eq_some {entries : List (List Char × FileTree)} {entry : List Char × FileTree}
    (distinct : (entries.map (·.1)).Nodup) (member : entry ∈ entries) :
    entry? (directory entries) entry.1 = some entry.2 := by
  obtain ⟨earlier, later, rfl⟩ := List.append_of_mem member
  refine List.lookup_eq_some_iff.mpr ⟨earlier, later, rfl, fun other isEarlier => ?_⟩
  rw [List.map_append, List.map_cons] at distinct
  have apart := (List.nodup_append.mp distinct).2.2 _ (List.mem_map_of_mem isEarlier) _
    List.mem_cons_self
  exact bne_iff_ne.mpr apart.symm

namespace Position

/-- Every directory on the way has entries with names of their own. -/
structure WellNamed (position : Position) : Prop where
  current : position.current.WellNamed
  outer : ∀ tree ∈ position.outer, tree.WellNamed

variable {position next : Position} {piece : List Char}

theorem WellNamed.step (wellNamed : position.WellNamed) (stepped : position.step piece = .ok next) :
    next.WellNamed := by
  unfold Position.step at stepped
  split at stepped
  · cases stepped
  split at stepped
  · cases stepped
    exact wellNamed
  split at stepped
  · split at stepped
    · cases stepped
      exact wellNamed
    · rename_i current outer shape
      cases stepped
      have areNamed := wellNamed.outer
      rw [shape, List.forall_mem_cons] at areNamed
      exact ⟨areNamed.1, areNamed.2⟩
  · split at stepped
    · rename_i inner found
      cases stepped
      exact ⟨wellNamed.current.of_mem (mem_entries_of_lookup found),
        List.forall_mem_cons.mpr ⟨wellNamed.current, wellNamed.outer⟩⟩
    · cases stepped

theorem WellNamed.foldlM_step (wellNamed : position.WellNamed) {pieces : List (List Char)}
    (leads : pieces.foldlM Position.step position = .ok next) : next.WellNamed := by
  induction pieces generalizing position with
  | nil =>
      cases leads
      exact wellNamed
  | cons piece pieces inductionHypothesis =>
      rw [List.foldlM_cons] at leads
      obtain ⟨middle, stepped, further⟩ := exists_of_bind_eq_ok leads
      exact inductionHypothesis (wellNamed.step stepped) further

theorem step_eq_ok {inner : FileTree} (isName : IsName name)
    (found : position.current.entry? name = some inner) :
    position.step name = .ok ⟨inner, position.current :: position.outer⟩ := by
  have stepped := toOption_step isName position
  rw [found, Option.map_some] at stepped
  cases outcome : position.step name with
  | error reason =>
      rw [outcome] at stepped
      cases stepped
  | ok next =>
      rw [outcome] at stepped
      cases stepped
      rfl

/-- Only from a directory a piece leads on. -/
theorem isFile_eq_false_of_step (stepped : position.step piece = .ok next) :
    position.current.isFile = false := by
  by_contra isFile
  rw [Position.step, if_pos (Bool.not_eq_false _ ▸ isFile)] at stepped
  cases stepped

/-- An empty piece stays where it is. -/
theorem eq_of_step_nil (stepped : position.step [] = .ok next) : next = position := by
  rw [Position.step] at stepped
  split at stepped
  · cases stepped
  · cases stepped
    rfl

theorem foldlM_step_singleton (position : Position) (piece : List Char) :
    [piece].foldlM step position = position.step piece := by
  rw [List.foldlM_cons]
  cases position.step piece <;> rfl

/-- A joined piece is one more step. -/
theorem resolve_join {path : List Char} {place : Position} (nonempty : path ≠ [])
    (noSlash : '/' ∉ piece) (leads : position.resolve path = .ok place) :
    position.resolve (join path piece) = place.step piece := by
  have shown : path.isEmpty = false := List.isEmpty_eq_false_iff.mpr nonempty
  have shownToo : (join path piece).isEmpty = false := by
    rcases exists_join_eq nonempty noSlash with ⟨front, -, joined⟩ | ⟨-, joined⟩
    · rw [joined, List.isEmpty_eq_false_iff]
      exact List.append_ne_nil_of_right_ne_nil _ (List.cons_ne_nil _ _)
    · rw [joined, List.isEmpty_eq_false_iff]
      exact List.append_ne_nil_of_left_ne_nil nonempty _
  rw [resolve, shown] at leads
  rw [resolve, shownToo, isAbsolute_join nonempty noSlash]
  simp only [Bool.false_eq_true, if_false] at leads ⊢
  rcases exists_join_eq nonempty noSlash with ⟨front, rfl, joined⟩ | ⟨-, joined⟩
  · rw [Text.splitOn_append_cons, List.foldlM_append] at leads
    obtain ⟨middle, first, last⟩ := exists_of_bind_eq_ok leads
    obtain rfl : place = middle := by
      rw [Text.splitOn, List.foldlM_cons] at last
      obtain ⟨stayed, stepped, same⟩ := exists_of_bind_eq_ok last
      cases same
      exact eq_of_step_nil stepped
    rw [joined, Text.splitOn_append_cons, List.foldlM_append, first,
      Text.splitOn_eq_singleton noSlash]
    exact foldlM_step_singleton place piece
  · rw [joined, Text.splitOn_append_cons, List.foldlM_append, leads,
      Text.splitOn_eq_singleton noSlash]
    exact foldlM_step_singleton place piece

end Position

mutual

/-- Everything below a tree is found by the names that lead there. -/
theorem of_mem_inside {outer : List FileTree} {found : List (List Char) × Position} :
    ∀ {tree : FileTree}, Position.WellNamed ⟨tree, outer⟩ → found ∈ inside outer tree →
      AreNames found.1 ∧ found.2.WellNamed ∧
        found.1.foldlM Position.step ⟨tree, outer⟩ = .ok found.2
  | file _, _, member => absurd member List.not_mem_nil
  | directory entries, wellNamed, member => by
      have distinct : (entries.map (·.1)).Nodup := by
        cases wellNamed.current
        assumption
      exact of_mem_insideEntries wellNamed
        (fun entry isEntry => ⟨isEntry, entry?_eq_some distinct isEntry⟩) member

theorem of_mem_insideEntries {whole : FileTree} {outer : List FileTree}
    {found : List (List Char) × Position} :
    ∀ {entries : List (List Char × FileTree)}, Position.WellNamed ⟨whole, outer⟩ →
      (∀ entry ∈ entries, entry ∈ whole.entries ∧ whole.entry? entry.1 = some entry.2) →
        found ∈ insideEntries (whole :: outer) entries →
          AreNames found.1 ∧ found.2.WellNamed ∧
            found.1.foldlM Position.step ⟨whole, outer⟩ = .ok found.2
  | [], _, _, member => absurd member List.not_mem_nil
  | (name, tree) :: entries, wellNamed, areEntries, member => by
      rw [List.forall_mem_cons] at areEntries
      obtain ⟨⟨isEntry, lookedUp⟩, areOthers⟩ := areEntries
      have isName := wellNamed.current.isName_of_mem isEntry
      have stepped := @Position.step_eq_ok _ ⟨whole, outer⟩ _ isName lookedUp
      have inner := wellNamed.step stepped
      rw [insideEntries, List.cons_append, List.mem_cons, List.mem_append, List.mem_map] at member
      rcases member with rfl | ⟨deeper, isDeeper, rfl⟩ | later
      · refine ⟨List.forall_mem_singleton.mpr isName, inner, ?_⟩
        rw [List.foldlM_cons, stepped]
        rfl
      · obtain ⟨areNames, deeperNamed, leads⟩ := of_mem_inside inner isDeeper
        refine ⟨List.forall_mem_cons.mpr ⟨isName, areNames⟩, deeperNamed, ?_⟩
        rw [List.foldlM_cons, stepped]
        exact leads
      · exact of_mem_insideEntries wellNamed areOthers later

end

end ScriptLint.FileTree
