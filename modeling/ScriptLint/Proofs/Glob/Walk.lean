import ScriptLint.Glob.Walk
import ScriptLint.Proofs.FileTree
import ScriptLint.Proofs.Glob.Reading
import Mathlib.Logic.Relation

/-!
# Where a walk leads

A walk goes from place to place: by a name of its pattern, to what is in a directory, to a dot or
two dots, or to anything below. If a walk begins at the path of a directory, then what it comes to is
spelled with the names of the directory first, and it is found under that spelling.
-/

namespace ScriptLint.Glob

open ScriptLint.Path

/-! ## Steps of a walk -/

namespace Visit

variable {visit next : Visit} {name piece : List Char}

/-- The current directory, from which a relative pattern is walked. -/
def here (position : FileTree.Position) : Visit := ⟨['.'], ['.'], position⟩

theorem enter?_eq_some : visit.enter? name = some next ↔
    spell visit.path name ≠ [] ∧
      ∃ position, visit.position.step name = .ok position ∧
        next = ⟨spell visit.path name, name, position⟩ := by
  rw [enter?, ← List.isEmpty_eq_false_iff]
  cases (spell visit.path name).isEmpty with
  | true => simp
  | false =>
      cases visit.position.step name with
      | error reason => simp [Except.toOption]
      | ok position => simp [Except.toOption, eq_comm]

theorem mem_names_iff {tree : FileTree} :
    name ∈ tree.names ↔ ∃ entry ∈ tree.entries, entry.1 = name := by
  rw [FileTree.names, List.mem_mergeSort, List.mem_map]

theorem mem_children : next ∈ visit.children ↔
    ∃ entry ∈ visit.position.current.entries, visit.enter? entry.1 = some next := by
  simp only [children, List.mem_filterMap, mem_names_iff, exists_exists_and_eq_and]

theorem mem_dots {pattern : Pattern} (member : next ∈ visit.dots pattern) :
    ∃ name position, (name = ['.'] ∨ name = ['.', '.']) ∧ pattern.accepts name = true ∧
      visit.position.step name = .ok position ∧
        next = ⟨Path.join visit.path name, name, position⟩ := by
  unfold dots at member
  split at member
  · obtain ⟨name, isName, found⟩ := List.mem_filterMap.mp member
    obtain ⟨position, stepped, rfl⟩ := Option.map_eq_some_iff.mp found
    obtain ⟨isDot, accepted⟩ := List.mem_filter.mp isName
    refine ⟨name, position, by simpa using isDot, accepted, ?_, rfl⟩
    cases outcome : visit.position.step name with
    | error reason =>
        rw [outcome] at stepped
        cases stepped
    | ok other =>
        rw [outcome] at stepped
        cases stepped
        rfl
  · exact absurd member List.not_mem_nil

theorem mem_descendants (member : next ∈ visit.descendants) :
    ∃ names position,
      (names, position) ∈ FileTree.inside visit.position.outer visit.position.current ∧
        next = ⟨names.foldl spell visit.path, names.getLastD [], position⟩ := by
  obtain ⟨⟨names, position⟩, found, rfl⟩ := List.mem_map.mp member
  exact ⟨names, position, found, rfl⟩

end Visit

/-! ## Walks -/

section Walks

variable {pattern next : Pattern} {rest others patterns : List Pattern} {visit found : Visit}
  {name : List Char}

theorem walk_literal (literal : pattern.literal? = some name) :
    walk (pattern :: rest) visit = (visit.enter? name).toList.flatMap (walk rest) := by
  rw [walk.eq_def]
  simp only [literal]

theorem walk_names (notLiteral : pattern.literal? = none) (plain : pattern.isRecursive = false) :
    walk (pattern :: rest) visit =
      (visit.children.filter fun child => pattern.accepts child.name).flatMap (walk rest) ++
        (visit.dots pattern).flatMap (walk rest) := by
  rw [walk.eq_def]
  simp only [notLiteral, plain, Bool.not_false, if_true]

theorem walk_lastComponents (notLiteral : pattern.literal? = none)
    (isRecursive : pattern.isRecursive = true) :
    walk [pattern] visit = visit.descendants.filter Visit.isDirectory := by
  rw [walk.eq_def]
  simp only [notLiteral, isRecursive, Bool.not_true, Bool.false_eq_true, if_false]

theorem walk_components (notLiteral : pattern.literal? = none)
    (isRecursive : pattern.isRecursive = true) :
    walk (pattern :: next :: others) visit =
      if next.isRecursive then walk (next :: others) visit
      else
        (visit.descendants.filter fun below => next.accepts below.name).flatMap (walk others) := by
  rw [walk.eq_def]
  simp only [notLiteral, isRecursive, Bool.not_true, Bool.false_eq_true, if_false]

/-- The pattern is one of a single component. -/
def Pattern.IsPiece (pattern : Pattern) : Prop :=
  ∀ name, pattern.literal? = some name → '/' ∉ name

/-- A walk goes on from a place to another one. -/
inductive Visit.Moves (visit : Visit) : Visit → Prop where
  | enter {name : List Char} {next : Visit} (noSlash : '/' ∉ name)
      (entered : visit.enter? name = some next) : visit.Moves next
  | child {next : Visit} (isChild : next ∈ visit.children) : visit.Moves next
  | dot {pattern : Pattern} {next : Visit} (isDot : next ∈ visit.dots pattern) : visit.Moves next
  | below {next : Visit} (isBelow : next ∈ visit.descendants) : visit.Moves next

open Relation

/-- A walk leads from place to place. -/
theorem reflTransGen_moves : ∀ {patterns : List Pattern} {visit : Visit},
    (∀ pattern ∈ patterns, pattern.IsPiece) → found ∈ walk patterns visit →
      ReflTransGen Visit.Moves visit found
  | [], visit, _, member => by
      rw [walk, List.mem_singleton] at member
      rw [member]
  | pattern :: rest, visit, arePieces, member => by
      rw [List.forall_mem_cons] at arePieces
      cases literal : pattern.literal? with
      | some name =>
          rw [walk_literal literal] at member
          obtain ⟨next, entered, later⟩ := List.mem_flatMap.mp member
          exact .head (.enter (arePieces.1 name literal) (Option.mem_toList.mp entered))
            (reflTransGen_moves arePieces.2 later)
      | none =>
          cases isRecursive : pattern.isRecursive with
          | false =>
              rw [walk_names literal isRecursive, List.mem_append] at member
              rcases member with member | member
              · obtain ⟨next, isChild, later⟩ := List.mem_flatMap.mp member
                exact .head (.child (List.mem_filter.mp isChild).1)
                  (reflTransGen_moves arePieces.2 later)
              · obtain ⟨next, isDot, later⟩ := List.mem_flatMap.mp member
                exact .head (.dot isDot) (reflTransGen_moves arePieces.2 later)
          | true =>
              match rest with
              | [] =>
                  rw [walk_lastComponents literal isRecursive] at member
                  exact .single (.below (List.mem_filter.mp member).1)
              | next :: others =>
                  rw [walk_components literal isRecursive] at member
                  split at member
                  · exact reflTransGen_moves arePieces.2 member
                  · obtain ⟨below, isBelow, later⟩ := List.mem_flatMap.mp member
                    exact .head (.below (List.mem_filter.mp isBelow).1)
                      (reflTransGen_moves (List.forall_mem_cons.mp arePieces.2).2 later)

end Walks

/-! ## Spellings -/

namespace Visit

/-- The place is spelled with the names of a directory first, and is found under its spelling. -/
structure IsWithin (position : FileTree.Position) (names : List (List Char)) (visit : Visit) :
    Prop where
  isPrefix : names.map .named <+: components visit.path
  leads : position.resolve visit.path = .ok visit.position
  wellNamed : visit.position.WellNamed

variable {position : FileTree.Position} {names : List (List Char)} {visit next : Visit}
  {piece : List Char}

namespace IsWithin

theorem path_ne_nil (within : visit.IsWithin position names) (nonempty : names ≠ []) :
    visit.path ≠ [] := by
  intro empty
  have isPrefix := within.isPrefix
  rw [empty] at isPrefix
  exact nonempty (List.map_eq_nil_iff.mp (List.prefix_nil.mp isPrefix))

theorem spell_eq (within : visit.IsWithin position names) (nonempty : names ≠ [])
    (piece : List Char) : spell visit.path piece = join visit.path piece := by
  refine if_neg fun isDot => ?_
  obtain ⟨first, others, rfl⟩ := List.exists_cons_of_ne_nil nonempty
  obtain ⟨_, shape⟩ := within.isPrefix
  rw [isDot] at shape
  cases shape

/-- One more piece stays within. -/
theorem step (within : visit.IsWithin position names) (nonempty : names ≠ [])
    (noSlash : '/' ∉ piece) {place : FileTree.Position}
    (stepped : visit.position.step piece = .ok place) (name : List Char) :
    (Visit.mk (join visit.path piece) name place).IsWithin position names where
  isPrefix := by
    rw [components_join (within.path_ne_nil nonempty) noSlash]
    exact within.isPrefix.trans (List.prefix_append _ _)
  leads := by
    rw [FileTree.Position.resolve_join (within.path_ne_nil nonempty) noSlash within.leads, stepped]
  wellNamed := within.wellNamed.step stepped

theorem enter (within : visit.IsWithin position names) (nonempty : names ≠ [])
    (noSlash : '/' ∉ piece) (entered : visit.enter? piece = some next) :
    next.IsWithin position names := by
  obtain ⟨-, place, stepped, rfl⟩ := enter?_eq_some.mp entered
  rw [within.spell_eq nonempty]
  exact within.step nonempty noSlash stepped piece

theorem below (within : visit.IsWithin position names) (nonempty : names ≠ [])
    {pieces : List (List Char)} (areNames : AreNames pieces) {place : FileTree.Position}
    (leads : pieces.foldlM FileTree.Position.step visit.position = .ok place) (name : List Char) :
    (Visit.mk (pieces.foldl spell visit.path) name place).IsWithin position names := by
  induction pieces generalizing visit with
  | nil =>
      cases leads
      exact ⟨within.isPrefix, within.leads, within.wellNamed⟩
  | cons piece pieces inductionHypothesis =>
      rw [AreNames, List.forall_mem_cons] at areNames
      rw [List.foldlM_cons] at leads
      obtain ⟨middle, stepped, further⟩ := exists_of_bind_eq_ok leads
      rw [List.foldl_cons, within.spell_eq nonempty]
      exact inductionHypothesis (within.step nonempty areNames.1.not_mem_slash stepped piece)
        areNames.2 further

theorem moves (within : visit.IsWithin position names) (nonempty : names ≠ [])
    (moves : visit.Moves next) : next.IsWithin position names := by
  cases moves with
  | enter noSlash entered => exact within.enter nonempty noSlash entered
  | child isChild =>
      obtain ⟨entry, isEntry, entered⟩ := mem_children.mp isChild
      exact within.enter nonempty
        (within.wellNamed.current.isName_of_mem isEntry).not_mem_slash entered
  | dot isDot =>
      obtain ⟨name, place, isName, -, stepped, rfl⟩ := mem_dots isDot
      refine within.step nonempty ?_ stepped name
      rcases isName with rfl | rfl <;> decide
  | below isBelow =>
      obtain ⟨pieces, place, isInside, rfl⟩ := mem_descendants isBelow
      obtain ⟨areNames, -, leads⟩ := FileTree.of_mem_inside within.wellNamed isInside
      exact within.below nonempty areNames leads _

theorem of_reflTransGen (within : visit.IsWithin position names) (nonempty : names ≠ [])
    (walked : Relation.ReflTransGen Moves visit next) : next.IsWithin position names := by
  induction walked with
  | refl => exact within
  | tail _ moves inductionHypothesis => exact inductionHypothesis.moves nonempty moves

end IsWithin

end Visit

end ScriptLint.Glob
