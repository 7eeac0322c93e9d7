import ScriptLint.Proofs.Glob.Escape
import ScriptLint.Proofs.Glob.Walk
import Mathlib.Data.List.Induction

/-!
# Walking through a directory

What a pattern reaches from a place are the files that its components lead to. A pattern that begins
with the escaped path of a directory reaches what the rest of the pattern reaches from that
directory, and a dot in front changes nothing.
-/

namespace ScriptLint.Glob

open Text ScriptLint.Path

/-- The components of a pattern lead from a place to a file, which is spelled in this way. A slash
at the end asks for a directory. -/
def Reaches (start : Visit) (letters path : List Char) : Prop :=
  letters.getLast? ≠ some '/' ∧
    ∃ patterns, (pieces letters).mapM Pattern.ofText = .ok patterns ∧
      ∃ found ∈ walk patterns start, found.isDirectory = false ∧ found.path = path

variable {position place : FileTree.Position} {letters path name rest : List Char}
  {names : List (List Char)} {patterns : List Pattern} {visit found : Visit}

/-! ## Files that match a pattern -/

/-- Only an empty component at the end is left out. -/
theorem mem_pieces {piece : List Char} (nonempty : piece ≠ []) :
    piece ∈ pieces letters ↔ piece ∈ splitOn '/' letters := by
  unfold pieces
  split
  · rfl
  · dsimp only
    split
    · rename_i ends
      obtain ⟨front, shape⟩ := List.getLast?_eq_some_iff.mp ends
      rw [shape, List.dropLast_concat, List.mem_append, List.mem_singleton, or_iff_left nonempty]
    · rfl

theorem forall_mem_pieces_isPattern_iff :
    (∀ piece ∈ pieces letters, IsPattern piece) ↔ IsWalkable letters := by
  constructor
  all_goals
    intro arePatterns piece member
    by_cases empty : piece = []
    · exact empty ▸ isPattern_nil
  · exact arePatterns piece ((mem_pieces empty).mpr member)
  · exact arePatterns piece ((mem_pieces empty).mp member)

theorem exists_mapM_pieces_iff :
    (∃ patterns, (pieces letters).mapM Pattern.ofText = .ok patterns) ↔ IsWalkable letters := by
  rw [exists_mapM_iff, ← forall_mem_pieces_isPattern_iff]
  exact forall₂_congr fun piece _ => isPattern_iff.symm

/-- A relative pattern is walked from the current directory if it and its components are
patterns. -/
theorem files_eq_ok_iff (relative : isAbsolute letters = false) {found : List (List Char)} :
    files position letters = .ok found ↔
      IsPattern letters ∧ ∃ patterns, (pieces letters).mapM Pattern.ofText = .ok patterns ∧
        found = (((walk patterns (.here position)).filter fun visit =>
          !(letters.getLast? == some '/') || visit.isDirectory).filter fun visit =>
            !visit.isDirectory).map Visit.path := by
  rw [isPattern_iff, files, visits, relative]
  cases Pattern.ofText letters with
  | error refusal => exact ⟨nofun, fun ⟨⟨_, succeeded⟩, _⟩ => nomatch succeeded⟩
  | ok pattern =>
      simp only [Bool.false_eq_true, if_false]
      cases (pieces letters).mapM Pattern.ofText with
      | error refusal => exact ⟨nofun, fun ⟨_, _, succeeded, _⟩ => nomatch succeeded⟩
      | ok patterns =>
          constructor
          · rintro ⟨⟩
            exact ⟨⟨pattern, rfl⟩, patterns, rfl, rfl⟩
          · rintro ⟨-, _, ⟨⟩, rfl⟩
            rfl

/-- A walk by a relative pattern succeeds exactly if all components are patterns. -/
theorem exists_files_iff (relative : isAbsolute letters = false) :
    (∃ found, files position letters = .ok found) ↔ IsWalkable letters := by
  simp only [files_eq_ok_iff relative]
  constructor
  · rintro ⟨found, -, patterns, read, -⟩
    exact exists_mapM_pieces_iff.mp ⟨patterns, read⟩
  · intro isWalkable
    obtain ⟨patterns, read⟩ := exists_mapM_pieces_iff.mpr isWalkable
    exact ⟨_, isWalkable.isPattern, patterns, read, rfl⟩

/-- The files that match a relative pattern are those that it reaches from the current directory. -/
theorem mem_files_iff (relative : isAbsolute letters = false) {found : List (List Char)}
    (succeeded : files position letters = .ok found) :
    path ∈ found ↔ Reaches (.here position) letters path := by
  obtain ⟨-, patterns, read, rfl⟩ := (files_eq_ok_iff relative).mp succeeded
  simp only [List.mem_map, List.mem_filter, Reaches]
  constructor
  · rintro ⟨visit, ⟨⟨isFound, asked⟩, isFile⟩, rfl⟩
    rw [Bool.not_eq_true'] at isFile
    rw [isFile, Bool.or_false, Bool.not_eq_true', beq_eq_false_iff_ne] at asked
    exact ⟨asked, patterns, read, visit, isFound, isFile, rfl⟩
  · rintro ⟨noSlash, others, readToo, visit, isFound, isFile, rfl⟩
    obtain rfl := Except.ok.inj (read.symm.trans readToo)
    refine ⟨visit, ⟨⟨isFound, ?_⟩, ?_⟩, rfl⟩
    · rw [beq_eq_false_iff_ne.mpr noSlash]
      rfl
    · rw [isFile]
      rfl

/-! ## Names of directories -/

theorem Visit.name_of_enter? {next : Visit} (entered : visit.enter? name = some next) :
    next.name = name := by
  obtain ⟨-, _, -, rfl⟩ := Visit.enter?_eq_some.mp entered
  rfl

/-- What is entered by a name is one of the children. -/
theorem Visit.mem_children_of_enter? {next : Visit} (isName : IsName name)
    (entered : visit.enter? name = some next) : next ∈ visit.children := by
  obtain ⟨-, place, stepped, -⟩ := Visit.enter?_eq_some.mp entered
  have lookedUp := FileTree.Position.toOption_step isName visit.position
  rw [stepped] at lookedUp
  obtain ⟨inner, isEntry, -⟩ := Option.map_eq_some_iff.mp lookedUp.symm
  exact Visit.mem_children.mpr ⟨(name, inner), FileTree.mem_entries_of_lookup isEntry, entered⟩

/-- An escaped name enters a directory by that name. -/
theorem mem_walk_escaped (isName : IsName name) :
    found ∈ walk (escaped name :: patterns) visit ↔
      ∃ next, visit.enter? name = some next ∧ found ∈ walk patterns next := by
  cases literal : (escaped name).literal? with
  | some text =>
      obtain rfl := eq_of_literal?_escaped literal
      rw [walk_literal literal, List.mem_flatMap]
      simp only [Option.mem_toList]
  | none =>
      rw [walk_names literal rfl, List.mem_append, List.mem_flatMap, List.mem_flatMap]
      simp only [List.mem_filter, accepts_escaped]
      constructor
      · rintro (⟨next, ⟨isChild, rfl⟩, later⟩ | ⟨next, isDot, -⟩)
        · obtain ⟨entry, -, entered⟩ := Visit.mem_children.mp isChild
          rw [Visit.name_of_enter? entered]
          exact ⟨next, entered, later⟩
        · obtain ⟨dots, _, areDots, accepted, -⟩ := Visit.mem_dots isDot
          obtain rfl := accepts_escaped.mp accepted
          exact absurd areDots (not_or.mpr ⟨isName.ne_current, isName.ne_parent⟩)
      · rintro ⟨next, entered, later⟩
        exact Or.inl ⟨next, ⟨Visit.mem_children_of_enter? isName entered,
          Visit.name_of_enter? entered⟩, later⟩

/-- The place that names lead to from the current directory. -/
def Visit.ofNames (names : List (List Char)) (place : FileTree.Position) : Visit :=
  ⟨if names = [] then ['.'] else Path.ofNames names, names.getLastD ['.'], place⟩

/-- From the place of the names in front of it, a name is entered. -/
theorem Visit.enter?_ofNames {middle : FileTree.Position} (areNames : AreNames names)
    (isName : IsName name) (stepped : middle.step name = .ok place) :
    (Visit.ofNames names middle).enter? name = some (.ofNames (names ++ [name]) place) := by
  have areAll : AreNames (names ++ [name]) :=
    List.forall_mem_append.mpr ⟨areNames, List.forall_mem_singleton.mpr isName⟩
  have nonempty : names ++ [name] ≠ [] :=
    List.append_ne_nil_of_right_ne_nil _ (List.cons_ne_nil _ _)
  have spelled : spell (Visit.ofNames names middle).path name = Path.ofNames (names ++ [name]) := by
    by_cases empty : names = []
    · rw [empty]
      exact if_pos (show components ['.'] = [.current] by decide)
    · have other : components (Path.ofNames names) ≠ [.current] := by
        obtain ⟨first, others, rfl⟩ := List.exists_cons_of_ne_nil empty
        rw [components_ofNames areNames]
        nofun
      rw [Visit.ofNames, if_neg empty, spell, if_neg other, join_ofNames empty areNames isName]
  refine Visit.enter?_eq_some.mpr ⟨?_, place, stepped, ?_⟩
  · rw [spelled]
    exact ofNames_ne_nil nonempty areAll
  · rw [spelled, Visit.ofNames, if_neg nonempty, List.getLastD_concat]

/-- Escaped names lead to the place that the names lead to. -/
theorem mem_walk_names (areNames : AreNames names)
    (leads : names.foldlM FileTree.Position.step position = .ok place) :
    found ∈ walk (names.map escaped ++ patterns) (.here position) ↔
      found ∈ walk patterns (.ofNames names place) := by
  induction names using List.reverseRecOn generalizing place patterns with
  | nil =>
      cases leads
      rfl
  | append_singleton names name inductionHypothesis =>
      rw [AreNames, List.forall_mem_append, List.forall_mem_singleton] at areNames
      rw [List.foldlM_append] at leads
      obtain ⟨middle, outer, last⟩ := exists_of_bind_eq_ok leads
      rw [FileTree.Position.foldlM_step_singleton] at last
      have entered := Visit.enter?_ofNames areNames.1 areNames.2 last
      rw [List.map_append, List.append_assoc, inductionHypothesis areNames.1 outer,
        List.map_singleton, List.singleton_append, mem_walk_escaped areNames.2, entered]
      simp

/-! ## Patterns in a directory -/

theorem mapM_escape (names : List (List Char)) :
    (names.map escape).mapM Pattern.ofText = .ok (names.map escaped) := by
  induction names with
  | nil => rfl
  | cons name names inductionHypothesis =>
      rw [List.map_cons, List.mapM_cons, ofText_escape, inductionHypothesis]
      rfl

theorem pieces_of_ne_nil (nonempty : letters ≠ []) :
    pieces letters = if (splitOn '/' letters).getLast? = some [] then (splitOn '/' letters).dropLast
      else splitOn '/' letters := by
  obtain ⟨first, others, rfl⟩ := List.exists_cons_of_ne_nil nonempty
  rfl

theorem pieces_append_cons {front : List Char} (nonempty : letters ≠ []) :
    pieces (front ++ '/' :: letters) = splitOn '/' front ++ pieces letters := by
  have parts : splitOn '/' letters ≠ [] := by
    obtain ⟨others, split⟩ := exists_splitOn_eq_cons '/' letters
    rw [split]
    exact List.cons_ne_nil _ _
  rw [pieces_of_ne_nil (List.append_ne_nil_of_right_ne_nil _ (List.cons_ne_nil _ _)),
    pieces_of_ne_nil nonempty, splitOn_append_cons, List.getLast?_append_of_ne_nil _ parts,
    List.dropLast_append_of_ne_nil parts]
  split
  · rfl
  · rfl

/-- The empty component leads to no file. -/
theorem not_reaches_nil {start : Visit} : ¬Reaches start [] path := by
  rintro ⟨-, patterns, read, found, isFound, isFile, -⟩
  have empty : (pieces []).mapM Pattern.ofText = .ok [⟨[], false⟩] := rfl
  have literal : Pattern.literal? ⟨[], false⟩ = some [] := rfl
  obtain rfl := Except.ok.inj (empty.symm.trans read)
  rw [walk_literal literal] at isFound
  obtain ⟨next, entered, isNext⟩ := List.mem_flatMap.mp isFound
  obtain ⟨-, place, stepped, rfl⟩ := Visit.enter?_eq_some.mp (Option.mem_toList.mp entered)
  rw [walk, List.mem_singleton] at isNext
  have stays := FileTree.Position.eq_of_step_nil stepped
  rw [isNext, Visit.isDirectory, FileTree.isDirectory, Bool.not_eq_false', stays] at isFile
  rw [FileTree.Position.step, if_pos isFile] at stepped
  cases stepped

/-- A pattern behind components that lead to a place reaches what it reaches from there. -/
theorem reaches_behind {start next : Visit} {front : List Char} {patterns : List Pattern}
    (read : (splitOn '/' front).mapM Pattern.ofText = .ok patterns)
    (leads : ∀ (rest : List Pattern) (found : Visit),
      found ∈ walk (patterns ++ rest) start ↔ found ∈ walk rest next) :
    Reaches start (front ++ '/' :: letters) path ↔ Reaches next letters path := by
  by_cases empty : letters = []
  · rw [empty]
    refine iff_of_false ?_ not_reaches_nil
    rintro ⟨noSlash, -⟩
    exact noSlash List.getLast?_concat
  · have ends : (front ++ '/' :: letters).getLast? = letters.getLast? := by
      rw [List.getLast?_append_of_ne_nil _ (List.cons_ne_nil _ _)]
      obtain ⟨first, others, rfl⟩ := List.exists_cons_of_ne_nil empty
      exact List.getLast?_cons_cons
    rw [Reaches, Reaches, ends, pieces_append_cons empty, List.mapM_append, read]
    refine and_congr_right fun _ => ?_
    constructor
    · rintro ⟨whole, readAll, found, isFound, isFile⟩
      obtain ⟨_, ⟨⟩, further⟩ := exists_of_bind_eq_ok readAll
      obtain ⟨others, readOthers, same⟩ := exists_of_bind_eq_ok further
      cases same
      exact ⟨others, readOthers, found, (leads _ _).mp isFound, isFile⟩
    · rintro ⟨others, readOthers, found, isFound, isFile⟩
      refine ⟨patterns ++ others, ?_, found, (leads _ _).mpr isFound, isFile⟩
      rw [readOthers]
      rfl

/-- In a directory a pattern reaches what it reaches from the place of the directory. -/
theorem reaches_in_directory (nonempty : names ≠ []) (areNames : AreNames names)
    (leads : position.resolve (ofNames names) = .ok place) :
    Reaches (.here position) (escape (ofNames names) ++ '/' :: letters) path ↔
      Reaches (.ofNames names place) letters path := by
  have read : (splitOn '/' (escape (ofNames names))).mapM Pattern.ofText =
      .ok (names.map escaped) := by
    rw [splitOn_escape, splitOn_ofNames nonempty areNames, mapM_escape]
  rw [FileTree.Position.resolve_ofNames nonempty areNames] at leads
  exact reaches_behind read fun rest found => mem_walk_names areNames leads

/-- A dot in front changes nothing. -/
theorem reaches_behind_current (isDirectory : position.current.isFile = false) :
    Reaches (.here position) ('.' :: '/' :: letters) path ↔
      Reaches (.here position) letters path := by
  have read : (splitOn '/' ['.']).mapM Pattern.ofText = .ok [⟨[.letter '.'], false⟩] := rfl
  have stepped : position.step ['.'] = .ok position := by
    rw [FileTree.Position.step, isDirectory]
    rfl
  have spelled : Visit.spell ['.'] ['.'] = ['.'] :=
    if_pos (show components ['.'] = [.current] by decide)
  have stays : (Visit.here position).enter? ['.'] = some (.here position) := by
    refine Visit.enter?_eq_some.mpr ⟨?_, position, stepped, ?_⟩
    · exact ne_of_eq_of_ne spelled (List.cons_ne_nil _ _)
    · exact congrArg (Visit.mk · ['.'] position) spelled.symm
  refine reaches_behind read fun rest found => ?_
  have literal : Pattern.literal? ⟨[.letter '.'], false⟩ = some ['.'] := rfl
  rw [List.singleton_append, walk_literal literal, stays]
  simp

/-- What is reached from a directory is a file, and its path leads through the directory. -/
theorem Reaches.isPrefix_and_hasFile (reaches : Reaches (.ofNames names place) letters path)
    (nonempty : names ≠ []) (areNames : AreNames names) (wellNamed : position.WellNamed)
    (leads : position.resolve (ofNames names) = .ok place) :
    names.map .named <+: components path ∧ position.hasFile path = true := by
  obtain ⟨-, patterns, read, found, isFound, isFile, rfl⟩ := reaches
  have begins : (Visit.ofNames names place).IsWithin position names := by
    rw [Visit.ofNames, if_neg nonempty]
    refine ⟨?_, leads, ?_⟩
    · exact ⟨[], by rw [components_ofNames areNames, List.append_nil]⟩
    · rw [FileTree.Position.resolve_ofNames nonempty areNames] at leads
      exact wellNamed.foldlM_step leads
  have arePieces : ∀ pattern ∈ patterns, pattern.IsPiece := by
    intro pattern isPattern name literal isSlash
    obtain ⟨piece, isPiece, readPiece⟩ := exists_of_mem_mapM read isPattern
    have inPiece := Pattern.mem_of_literal? readPiece literal isSlash
    have nonemptyPiece : piece ≠ [] := List.ne_nil_of_mem inPiece
    exact not_mem_of_mem_splitOn ((mem_pieces nonemptyPiece).mp isPiece) inPiece
  have within := begins.of_reflTransGen nonempty (reflTransGen_moves arePieces isFound)
  refine ⟨within.isPrefix, ?_⟩
  rw [FileTree.Position.hasFile, FileTree.Position.get?, within.leads]
  rw [Visit.isDirectory, FileTree.isDirectory, Bool.not_eq_false'] at isFile
  exact isFile

end ScriptLint.Glob
