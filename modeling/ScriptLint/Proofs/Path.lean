import ScriptLint.Path
import ScriptLint.Proofs.Text.Split
import Mathlib.Data.List.Basic

/-!
# Paths of names

Names that stand for themselves can be put together to a path and taken out of it again: a path of
names has them as its components, the directory around a name is the path of the names in front of
it, and to join a name is to put it behind the others. Any piece without a slash that is joined to a
path adds at most one component to it.
-/

namespace ScriptLint.Path

open Text

/-- A name of a file or a directory: a piece of a path that is neither idle nor leads upwards. -/
structure IsName (name : List Char) : Prop where
  ne_nil : name ≠ []
  ne_current : name ≠ ['.']
  ne_parent : name ≠ ['.', '.']
  not_mem_slash : '/' ∉ name

instance (name : List Char) : Decidable (IsName name) :=
  decidable_of_iff (name ≠ [] ∧ name ≠ ['.'] ∧ name ≠ ['.', '.'] ∧ '/' ∉ name)
    ⟨fun ⟨nonempty, noCurrent, noParent, noSlash⟩ => ⟨nonempty, noCurrent, noParent, noSlash⟩,
      fun ⟨nonempty, noCurrent, noParent, noSlash⟩ => ⟨nonempty, noCurrent, noParent, noSlash⟩⟩

/-- All of them are names. -/
def AreNames (names : List (List Char)) : Prop := ∀ name ∈ names, IsName name

instance (names : List (List Char)) : Decidable (AreNames names) :=
  inferInstanceAs (Decidable (∀ name ∈ names, _))

/-- The relative path of names. -/
def ofNames (names : List (List Char)) : List Char := joinWith '/' names

/-- The path of names from the root on. -/
def fromRoot (names : List (List Char)) : List Char := '/' :: ofNames names

variable {name path : List Char} {names : List (List Char)}

theorem isAbsolute_of_not_mem (noSlash : '/' ∉ path) : isAbsolute path = false := by
  cases path with
  | nil => rfl
  | cons first others =>
      have notSlash : first ≠ '/' := fun same => noSlash (same ▸ List.mem_cons_self)
      simp [isAbsolute, notSlash]

theorem isAbsolute_append (nonempty : path ≠ []) (rest : List Char) :
    isAbsolute (path ++ rest) = isAbsolute path := by
  obtain ⟨first, others, rfl⟩ := List.exists_cons_of_ne_nil nonempty
  rfl

namespace IsName

theorem isIdlePiece_eq_false (isName : IsName name) : isIdlePiece name = false := by
  rw [isIdlePiece, Bool.or_eq_false_iff]
  exact ⟨List.isEmpty_eq_false_iff.mpr isName.ne_nil, beq_eq_false_iff_ne.mpr isName.ne_current⟩

theorem ofPiece_eq (isName : IsName name) : Component.ofPiece name = .named name := by
  rw [Component.ofPiece, if_neg (by simpa using isName.ne_current),
    if_neg (by simpa using isName.ne_parent)]

theorem isAbsolute_eq_false (isName : IsName name) (rest : List Char) :
    isAbsolute (name ++ rest) = false := by
  rw [isAbsolute_append isName.ne_nil, isAbsolute_of_not_mem isName.not_mem_slash]

/-- The end of a name is neither a slash nor an idle piece, so nothing is trimmed. -/
theorem trimReversed_eq (isName : IsName name) (absolute : Bool) (rest : List Char) :
    trimReversed absolute (name.reverse ++ '/' :: rest) = name.reverse ++ '/' :: rest := by
  have noSlash := isName.not_mem_slash
  rw [← List.mem_reverse] at noSlash
  have noCurrent : name.reverse ≠ ['.'] := fun same =>
    isName.ne_current (by rw [← List.reverse_reverse name, same]; rfl)
  match shape : name.reverse with
  | [] => exact absurd (List.reverse_eq_nil_iff.mp shape) isName.ne_nil
  | [last] =>
      rw [shape] at noSlash noCurrent
      have notSlash : last ≠ '/' := fun same => noSlash (same ▸ List.mem_cons_self)
      have notDot : last ≠ '.' := fun same => noCurrent (same ▸ rfl)
      simp [trimReversed, notSlash, notDot]
  | last :: next :: others =>
      rw [shape, List.mem_cons, List.mem_cons, not_or, not_or] at noSlash
      simp [trimReversed, Ne.symm noSlash.1, Ne.symm noSlash.2.1]

end IsName

/-! ## Paths and their components -/

theorem splitOn_ofNames (nonempty : names ≠ []) (areNames : AreNames names) :
    splitOn '/' (ofNames names) = names :=
  splitOn_joinWith nonempty fun name member => (areNames name member).not_mem_slash

theorem filter_not_isEmpty (areNames : AreNames names) :
    names.filter (fun piece => !piece.isEmpty) = names := by
  rw [List.filter_eq_self]
  intro name member
  simpa using (areNames name member).ne_nil

theorem filter_splitOn_ofNames (areNames : AreNames names) :
    (splitOn '/' (ofNames names)).filter (fun piece => !piece.isEmpty) = names := by
  cases names with
  | nil => rfl
  | cons first others =>
      rw [splitOn_ofNames (List.cons_ne_nil _ _) areNames, filter_not_isEmpty areNames]

theorem isAbsolute_ofNames (areNames : AreNames names) : isAbsolute (ofNames names) = false := by
  cases names with
  | nil => rfl
  | cons first others =>
      rw [ofNames, joinWith_cons]
      exact (areNames first List.mem_cons_self).isAbsolute_eq_false _

theorem filter_ne_current (areNames : AreNames names) :
    names.filter (· != ['.']) = names := by
  rw [List.filter_eq_self]
  exact fun name member => bne_iff_ne.mpr (areNames name member).ne_current

theorem map_ofPiece (areNames : AreNames names) :
    names.map Component.ofPiece = names.map .named :=
  List.map_congr_left fun name member => (areNames name member).ofPiece_eq

theorem components_ofNames (areNames : AreNames names) :
    components (ofNames names) = names.map .named := by
  rw [components, isAbsolute_ofNames areNames, filter_splitOn_ofNames areNames]
  cases names with
  | nil => rfl
  | cons first others =>
      have areOthers : AreNames others := fun name member =>
        areNames name (List.mem_cons_of_mem first member)
      simp only [Bool.false_eq_true, if_false, filter_ne_current areOthers, map_ofPiece areOthers,
        (areNames first List.mem_cons_self).ofPiece_eq, List.map_cons]

theorem components_fromRoot (areNames : AreNames names) :
    components (fromRoot names) = .root :: names.map .named := by
  have absolute : isAbsolute (fromRoot names) = true := rfl
  have pieces : (splitOn '/' (fromRoot names)).filter (fun piece => !piece.isEmpty) = names := by
    rw [fromRoot, splitOn_cons_self]
    exact filter_splitOn_ofNames areNames
  rw [components, absolute, pieces]
  simp only [if_true, filter_ne_current areNames, map_ofPiece areNames]

theorem ofNames_concat (nonempty : names ≠ []) (name : List Char) :
    ofNames (names ++ [name]) = ofNames names ++ '/' :: name := by
  obtain ⟨first, others, rfl⟩ := List.exists_cons_of_ne_nil nonempty
  rw [ofNames, ofNames, List.cons_append, joinWith_cons, joinWith_cons, List.flatMap_append,
    List.flatMap_singleton, List.append_assoc]

theorem fromRoot_concat (names : List (List Char)) (name : List Char) :
    fromRoot (names ++ [name]) =
      (if names = [] then [] else fromRoot names) ++ '/' :: name := by
  by_cases empty : names = []
  · rw [empty]
    rfl
  · rw [if_neg empty, fromRoot, ofNames_concat empty]
    rfl

/-- A path of names ends with a character of its last name. -/
theorem getLast?_ofNames (areNames : AreNames names) :
    (ofNames names).getLast? ≠ some '/' := by
  rcases List.eq_nil_or_concat' names with rfl | ⟨earlier, last, rfl⟩
  · nofun
  · have isLast := areNames last (List.mem_append_right _ List.mem_cons_self)
    obtain ⟨front, final, rfl⟩ :=
      (List.eq_nil_or_concat' last).resolve_left isLast.ne_nil
    have noSlash : final ≠ '/' := fun same =>
      isLast.not_mem_slash (same ▸ List.mem_append_right _ List.mem_cons_self)
    rw [ofNames, joinWith_append_cons]
    simpa using noSlash

/-! ## Directories -/

theorem join_of_not_mem {piece : List Char} (nonempty : path ≠ []) (noSlash : '/' ∉ piece)
    (ends : path.getLast? ≠ some '/') : join path piece = path ++ '/' :: piece := by
  rw [join, isAbsolute_of_not_mem noSlash, List.isEmpty_eq_false_iff.mpr nonempty, Bool.or_false,
    if_neg Bool.false_ne_true, if_neg (by simpa using ends)]

theorem ofNames_ne_nil (nonempty : names ≠ []) (areNames : AreNames names) :
    ofNames names ≠ [] := by
  intro empty
  have whole := splitOn_ofNames nonempty areNames
  rw [empty] at whole
  exact (areNames [] (whole ▸ List.mem_singleton_self [])).ne_nil rfl

/-- To join a name is to put it behind the others. -/
theorem join_ofNames (nonempty : names ≠ []) (areNames : AreNames names) (isName : IsName name) :
    join (ofNames names) name = ofNames (names ++ [name]) := by
  rw [join_of_not_mem (ofNames_ne_nil nonempty areNames) isName.not_mem_slash
      (getLast?_ofNames areNames),
    ofNames_concat nonempty]

theorem join_fromRoot (areNames : AreNames names) (isName : IsName name) :
    join (fromRoot names) name = fromRoot (names ++ [name]) := by
  by_cases empty : names = []
  · rw [empty, join, isAbsolute_of_not_mem isName.not_mem_slash]
    rfl
  · have noSlash : (fromRoot names).getLast? ≠ some '/' := by
      obtain ⟨first, others, shape⟩ :=
        List.exists_cons_of_ne_nil (ofNames_ne_nil empty areNames)
      have ends := getLast?_ofNames areNames
      rwa [shape, ← List.getLast?_cons_cons, ← shape] at ends
    have nonempty : fromRoot names ≠ [] := List.cons_ne_nil _ _
    rw [join_of_not_mem nonempty isName.not_mem_slash noSlash, fromRoot_concat, if_neg empty]

theorem parent?_root : parent? (fromRoot []) = none := by
  decide

/-- The directory around a name is the path of the names in front of it. -/
theorem parent?_fromRoot_concat (areNames : AreNames names) (isName : IsName name) :
    parent? (fromRoot (names ++ [name])) = some (fromRoot names) := by
  have last : (components (fromRoot (names ++ [name]))).getLast? = some (.named name) := by
    rw [components_fromRoot (List.forall_mem_append.mpr ⟨areNames, by simpa using isName⟩),
      List.map_append, ← List.cons_append]
    exact List.getLast?_concat
  have passed : ∀ letter ∈ name.reverse, (letter != '/') = true := by
    intro letter member
    exact bne_iff_ne.mpr fun same => isName.not_mem_slash (List.mem_reverse.mp (same ▸ member))
  have reversed : (fromRoot (names ++ [name])).reverse =
      name.reverse ++ '/' :: (if names = [] then [] else fromRoot names).reverse := by
    rw [fromRoot_concat]
    simp
  have absolute : isAbsolute (fromRoot (names ++ [name])) = true := rfl
  rw [parent?, last]
  simp only [absolute, reversed, isName.trimReversed_eq, List.dropWhile_append_of_pos passed]
  rw [List.dropWhile_cons_of_neg (by decide)]
  rcases List.eq_nil_or_concat' names with rfl | ⟨earlier, outer, rfl⟩
  · rfl
  · -- behind the slash the path of the directory begins, and nothing is trimmed from it
    have isOuter := areNames outer (List.mem_append_right _ List.mem_cons_self)
    have trimmed : trimReversed true ('/' :: (fromRoot (earlier ++ [outer])).reverse) =
        (fromRoot (earlier ++ [outer])).reverse := by
      have shape : (fromRoot (earlier ++ [outer])).reverse = outer.reverse ++
          '/' :: (if earlier = [] then [] else fromRoot earlier).reverse := by
        rw [fromRoot_concat]
        simp
      rw [shape]
      nth_rewrite 2 [← isOuter.trimReversed_eq true]
      cases front : outer.reverse with
      | nil => rfl
      | cons first others => simp [trimReversed]
    rw [if_neg (List.append_ne_nil_of_right_ne_nil _ (List.cons_ne_nil _ _)), trimmed,
      List.reverse_reverse]

/-! ## Joining a piece -/

variable {piece : List Char}

/-- To join a piece without a slash is to put it behind the path and a slash, unless the path ends
with one. -/
theorem exists_join_eq (nonempty : path ≠ []) (noSlash : '/' ∉ piece) :
    (∃ front, path = front ++ ['/'] ∧ join path piece = front ++ '/' :: piece) ∨
      path.getLast? ≠ some '/' ∧ join path piece = path ++ '/' :: piece := by
  by_cases ends : path.getLast? = some '/'
  · obtain ⟨front, rfl⟩ := List.getLast?_eq_some_iff.mp ends
    refine Or.inl ⟨front, rfl, ?_⟩
    rw [join, isAbsolute_of_not_mem noSlash, List.isEmpty_eq_false_iff.mpr nonempty, Bool.or_false,
      if_neg Bool.false_ne_true, if_pos (by simp), List.append_assoc, List.singleton_append]
  · exact Or.inr ⟨ends, join_of_not_mem nonempty noSlash ends⟩

/-- The pieces between slashes that are not empty. -/
theorem filter_splitOn_join (nonempty : path ≠ []) (noSlash : '/' ∉ piece) :
    (splitOn '/' (join path piece)).filter (fun part => !part.isEmpty) =
      (splitOn '/' path).filter (fun part => !part.isEmpty) ++
        if piece = [] then [] else [piece] := by
  have own : [piece].filter (fun part => !part.isEmpty) = if piece = [] then [] else [piece] := by
    by_cases empty : piece = []
    · rw [empty]
      rfl
    · simp [empty]
  rw [← own]
  rcases exists_join_eq nonempty noSlash with ⟨front, rfl, joined⟩ | ⟨-, joined⟩
  · rw [joined, splitOn_append_cons, splitOn_append_cons, splitOn_eq_singleton noSlash,
      List.filter_append, List.filter_append, splitOn]
    simp
  · rw [joined, splitOn_append_cons, splitOn_eq_singleton noSlash, List.filter_append]

theorem isAbsolute_join (nonempty : path ≠ []) (noSlash : '/' ∉ piece) :
    isAbsolute (join path piece) = isAbsolute path := by
  rcases exists_join_eq nonempty noSlash with ⟨front, rfl, joined⟩ | ⟨-, joined⟩
  · cases front with
    | nil => rw [joined]; rfl
    | cons first others => rw [joined]; rfl
  · rw [joined, isAbsolute_append nonempty]

theorem exists_first_piece (nonempty : path ≠ []) (relative : isAbsolute path = false) :
    ∃ first rest, (splitOn '/' path).filter (fun part => !part.isEmpty) = first :: rest := by
  obtain ⟨letter, others, rfl⟩ := List.exists_cons_of_ne_nil nonempty
  have notSlash : letter ≠ '/' := by
    rintro rfl
    cases relative
  obtain ⟨pieces, split⟩ := exists_splitOn_eq_cons '/' others
  rw [splitOn_cons_of_ne notSlash split]
  exact ⟨_, _, List.filter_cons_of_pos rfl⟩

/-- A joined piece adds at most one component. -/
theorem components_join (nonempty : path ≠ []) (noSlash : '/' ∉ piece) :
    components (join path piece) =
      components path ++ if isIdlePiece piece then [] else [.ofPiece piece] := by
  have last : ((if piece = [] then [] else [piece]).filter (· != ['.'])).map Component.ofPiece =
      if isIdlePiece piece then [] else [.ofPiece piece] := by
    by_cases empty : piece = []
    · rw [empty]
      rfl
    · by_cases current : piece = ['.']
      · rw [current]
        rfl
      · simp [empty, current, isIdlePiece]
  rw [components, components, isAbsolute_join nonempty noSlash,
    filter_splitOn_join nonempty noSlash]
  cases absolute : isAbsolute path with
  | true =>
      rw [← last]
      simp only [if_true, List.filter_append, List.map_append, List.cons_append]
  | false =>
      obtain ⟨first, rest, shape⟩ := exists_first_piece nonempty absolute
      rw [← last, shape]
      simp only [Bool.false_eq_true, if_false, List.cons_append, List.filter_append,
        List.map_append]

/-! ## Relative to a directory -/

/-- A path that leads through a directory is taken relative to it. -/
theorem exists_relativeTo?_iff {directory : List Char} :
    (∃ relative, relativeTo? directory path = some relative) ↔
      components directory <+: components path := by
  rw [relativeTo?, ← List.isPrefixOf_iff_prefix]
  cases components directory |>.isPrefixOf (components path) with
  | true => simp
  | false => simp

theorem splitOn_current_ofNames (nonempty : names ≠ []) (areNames : AreNames names) :
    splitOn '/' ('.' :: '/' :: ofNames names) = ['.'] :: names := by
  rw [splitOn_cons_of_ne (by decide) (splitOn_cons_self '/' _), splitOn_ofNames nonempty areNames]

/-- The components of a path of names behind the dot for the current directory. -/
theorem components_current_ofNames (nonempty : names ≠ []) (areNames : AreNames names) :
    components ('.' :: '/' :: ofNames names) = .current :: names.map .named := by
  have relative : isAbsolute ('.' :: '/' :: ofNames names) = false := rfl
  rw [components, relative, splitOn_current_ofNames nonempty areNames, List.filter_cons_of_pos rfl,
    filter_not_isEmpty areNames]
  simp only [Bool.false_eq_true, if_false, filter_ne_current areNames, map_ofPiece areNames]
  rfl

end ScriptLint.Path
