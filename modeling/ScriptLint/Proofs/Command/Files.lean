import ScriptLint.Command.Files
import ScriptLint.Proofs.Glob.Directory

/-!
# The files of a directory

The files that are collected in a directory are those that a pattern to include reaches from there
and the filter accepts. The walk spells them from the names of the directory on, so the filter is
asked about the path relative to the directory if the directory is given by its names, and about the
whole path if a dot stands in front of them.
-/

namespace ScriptLint.Command

open ScriptLint.Path Glob

/-- The files are all selected, and every selected path is one of them in some spelling. -/
structure Gathers (files : List (List Char)) (selected : List Char → Prop) : Prop where
  sound : ∀ file ∈ files, selected file
  complete : ∀ path, selected path → ∃ file ∈ files, components file = components path

/-! ## Sorted files -/

section Sorted

variable {path file : List Char} {files found : List (List Char)} {parts : List Component}

theorem mem_of_mem_insertSorted (member : file ∈ insertSorted path files) :
    file = path ∨ file ∈ files := by
  induction files with
  | nil => exact Or.inl (List.mem_singleton.mp member)
  | cons present rest inductionHypothesis =>
      rw [insertSorted] at member
      split at member
      · exact Or.inr member
      split at member
      · exact List.mem_cons.mp member
      · rcases List.mem_cons.mp member with rfl | later
        · exact Or.inr List.mem_cons_self
        · exact (inductionHypothesis later).imp_right (List.mem_cons_of_mem _)

/-- A path is put into a list in some spelling, and no path is lost. -/
theorem exists_mem_insertSorted :
    (∃ file ∈ insertSorted path files, components file = parts) ↔
      components path = parts ∨ ∃ file ∈ files, components file = parts := by
  induction files with
  | nil => simp only [insertSorted, List.mem_singleton, exists_eq_left, List.not_mem_nil,
      false_and, exists_false, or_false]
  | cons present rest inductionHypothesis =>
      rw [insertSorted]
      split
      · rename_i same
        rw [same, List.exists_mem_cons_iff, ← or_assoc, or_self]
      split
      · rw [List.exists_mem_cons_iff]
      · rw [List.exists_mem_cons_iff, List.exists_mem_cons_iff, inductionHypothesis, or_left_comm]

theorem mem_of_mem_foldl (member : file ∈ found.foldl (fun files path => insertSorted path files)
    files) : file ∈ files ∨ file ∈ found := by
  induction found generalizing files with
  | nil => exact Or.inl member
  | cons first others inductionHypothesis =>
      rcases inductionHypothesis member with earlier | later
      · rcases mem_of_mem_insertSorted earlier with rfl | present
        · exact Or.inr List.mem_cons_self
        · exact Or.inl present
      · exact Or.inr (List.mem_cons_of_mem _ later)

theorem exists_mem_foldl :
    (∃ file ∈ found.foldl (fun files path => insertSorted path files) files,
      components file = parts) ↔
      (∃ file ∈ found, components file = parts) ∨ ∃ file ∈ files, components file = parts := by
  induction found generalizing files with
  | nil => simp only [List.foldl_nil, List.not_mem_nil, false_and, exists_false, false_or]
  | cons first others inductionHypothesis =>
      rw [List.foldl_cons, inductionHypothesis, exists_mem_insertSorted, List.exists_mem_cons_iff,
        or_left_comm, or_assoc]

theorem gathers_foldl_insertSorted (found : List (List Char)) :
    Gathers (found.foldl (fun files path => insertSorted path files) []) (· ∈ found) where
  sound _ member := (mem_of_mem_foldl member).resolve_left List.not_mem_nil
  complete path member := exists_mem_foldl.mpr (Or.inl ⟨path, member, rfl⟩)

end Sorted

/-! ## Files in a directory -/

section Directory

variable {position place : FileTree.Position} {included : List String} {filter : FileFilter}
  {directory path : List Char} {pattern : String} {found : List (List Char)}
  {names : List (List Char)}

theorem filesByPattern_eq_ok_iff : filesByPattern position filter directory pattern = .ok found ↔
    ∃ matched, files position (patternIn directory pattern) = .ok matched ∧
      found = matched.filter (acceptsIn filter directory) := by
  rw [filesByPattern, matching]
  cases files position (patternIn directory pattern) with
  | error refusal => exact ⟨nofun, fun ⟨_, succeeded, _⟩ => nomatch succeeded⟩
  | ok matched =>
      constructor
      · rintro ⟨⟩
        exact ⟨matched, rfl, rfl⟩
      · rintro ⟨_, ⟨⟩, rfl⟩
        rfl

theorem filesIn_eq_ok_iff : filesIn position included filter directory = .ok found ↔
    ∃ each, included.mapM (filesByPattern position filter directory) = .ok each ∧
      found = each.flatten := by
  rw [filesIn]
  cases included.mapM (filesByPattern position filter directory) with
  | error refusal => exact ⟨nofun, fun ⟨_, succeeded, _⟩ => nomatch succeeded⟩
  | ok each =>
      constructor
      · rintro ⟨⟩
        exact ⟨each, rfl, rfl⟩
      · rintro ⟨_, ⟨⟩, rfl⟩
        rfl

/-- A directory can be searched exactly if all patterns to include can be walked in it. -/
theorem exists_filesIn_iff
    (relative : ∀ pattern, isAbsolute (patternIn directory pattern) = false) :
    (∃ found, filesIn position included filter directory = .ok found) ↔
      ∀ pattern ∈ included, IsWalkable (patternIn directory pattern) := by
  have succeeds : ∀ pattern, (∃ own, filesByPattern position filter directory pattern = .ok own) ↔
      IsWalkable (patternIn directory pattern) := by
    intro pattern
    rw [← @exists_files_iff position _ (relative pattern)]
    simp only [filesByPattern_eq_ok_iff]
    exact ⟨fun ⟨_, matched, walked, _⟩ => ⟨matched, walked⟩,
      fun ⟨matched, walked⟩ => ⟨_, matched, walked, rfl⟩⟩
  simp only [filesIn_eq_ok_iff, ← succeeds, ← exists_mapM_iff]
  exact ⟨fun ⟨_, each, read, _⟩ => ⟨each, read⟩, fun ⟨each, read⟩ => ⟨_, each, read, rfl⟩⟩

/-- The files in a directory are those that a pattern to include reaches and the filter accepts. -/
theorem mem_filesIn_iff (relative : ∀ pattern, isAbsolute (patternIn directory pattern) = false)
    (succeeded : filesIn position included filter directory = .ok found) :
    path ∈ found ↔
      (∃ pattern ∈ included, Reaches (.here position) (patternIn directory pattern) path) ∧
        acceptsIn filter directory path = true := by
  obtain ⟨each, read, rfl⟩ := filesIn_eq_ok_iff.mp succeeded
  rw [List.mem_flatten]
  constructor
  · rintro ⟨own, isOwn, member⟩
    obtain ⟨pattern, isPattern, ownEq⟩ := exists_of_mem_mapM read isOwn
    obtain ⟨matched, walked, rfl⟩ := filesByPattern_eq_ok_iff.mp ownEq
    obtain ⟨isMatched, accepted⟩ := List.mem_filter.mp member
    exact ⟨⟨pattern, isPattern, (mem_files_iff (relative pattern) walked).mp isMatched⟩, accepted⟩
  · rintro ⟨⟨pattern, isPattern, reaches⟩, accepted⟩
    obtain ⟨own, isOwn, ownEq⟩ := exists_result_of_mapM read isPattern
    obtain ⟨matched, walked, rfl⟩ := filesByPattern_eq_ok_iff.mp ownEq
    exact ⟨_, isOwn, List.mem_filter.mpr
      ⟨(mem_files_iff (relative pattern) walked).mpr reaches, accepted⟩⟩

/-- A directory that is given alone stands for the files in it. -/
theorem collect_singleton (isDirectory : position.hasDirectory directory = true) :
    collect position included filter [directory] =
      (filesIn position included filter directory).map fun found =>
        found.foldl (fun files path => insertSorted path files) [] := by
  have noFile : position.hasFile directory = false := by
    by_contra isFile
    rw [FileTree.Position.hasDirectory_eq_false (Bool.not_eq_false _ ▸ isFile)] at isDirectory
    cases isDirectory
  rw [collect, List.mapM_cons, filesOf, noFile, isDirectory]
  simp only [Bool.false_eq_true, if_false, if_true]
  cases filesIn position included filter directory with
  | error refusal => rfl
  | ok found =>
      rw [List.mapM_nil]
      exact congrArg
        (fun files => Except.ok (files.foldl (fun files path => insertSorted path files) []))
        (List.flatten_singleton : [found].flatten = found)

/-- The files of a directory are collected exactly if all patterns to include can be walked, and
then they are those that a pattern to include reaches and the filter accepts. -/
theorem collect_of_hasDirectory (isDirectory : position.hasDirectory directory = true)
    (relative : ∀ pattern, isAbsolute (patternIn directory pattern) = false) :
    ((∃ files, collect position included filter [directory] = .ok files) ↔
      ∀ pattern ∈ included, IsWalkable (patternIn directory pattern)) ∧
      ∀ files, collect position included filter [directory] = .ok files →
        Gathers files fun path =>
          (∃ pattern ∈ included, Reaches (.here position) (patternIn directory pattern) path) ∧
            acceptsIn filter directory path = true := by
  rw [← @exists_filesIn_iff position included filter directory relative,
    collect_singleton isDirectory]
  cases succeeded : filesIn position included filter directory with
  | error refusal => exact ⟨⟨nofun, nofun⟩, nofun⟩
  | ok found =>
      refine ⟨⟨fun _ => ⟨found, rfl⟩, fun _ => ⟨_, rfl⟩⟩, ?_⟩
      rintro files ⟨⟩
      obtain ⟨sound, complete⟩ := gathers_foldl_insertSorted found
      exact ⟨fun file member => (mem_filesIn_iff relative succeeded).mp (sound file member),
        fun path selected => complete path ((mem_filesIn_iff relative succeeded).mpr selected)⟩

/-! ## Two spellings of a directory -/

theorem isAbsolute_patternIn (nonempty : directory ≠ [])
    (relative : isAbsolute directory = false) (pattern : String) :
    isAbsolute (patternIn directory pattern) = false := by
  obtain ⟨first, others, rfl⟩ := List.exists_cons_of_ne_nil nonempty
  rw [patternIn]
  cases meaning : hasMeaning first with
  | true =>
      rw [escape_cons_of_hasMeaning meaning]
      rfl
  | false =>
      rw [escape_cons_of_plain meaning]
      exact relative

theorem isWalkable_patternIn_iff :
    IsWalkable (patternIn directory pattern) ↔ IsWalkable (dropCurrent pattern.toList) := by
  have escapedPieces : ∀ piece ∈ (Text.splitOn '/' directory).map escape, IsPattern piece := by
    intro piece member
    obtain ⟨name, -, rfl⟩ := List.mem_map.mp member
    exact isPattern_iff.mpr ⟨_, ofText_escape name⟩
  rw [IsWalkable, patternIn, Text.splitOn_append_cons, splitOn_escape, List.forall_mem_append,
    and_iff_right escapedPieces]
  rfl

theorem patternIn_current (directory : List Char) (pattern : String) :
    patternIn ('.' :: '/' :: directory) pattern = '.' :: '/' :: patternIn directory pattern := by
  rw [patternIn, escape_cons_of_plain (by decide), escape_cons_of_plain (by decide)]
  rfl

/-- A path that is spelled with the names of the directory first is taken relative to them. -/
theorem acceptsIn_ofNames_iff (areNames : AreNames names)
    (isPrefix : names.map .named <+: components path) :
    acceptsIn filter (ofNames names) path = true ↔
      ∃ relative, relativeTo? (ofNames names) path = some relative ∧
        filter.accepts relative = true := by
  rw [← components_ofNames areNames] at isPrefix
  obtain ⟨relative, found⟩ := exists_relativeTo?_iff.mpr isPrefix
  rw [acceptsIn, found, Option.getD_some]
  exact ⟨fun accepted => ⟨relative, rfl, accepted⟩, fun ⟨_, same, accepted⟩ =>
    Option.some.inj same ▸ accepted⟩

/-- It is taken as a whole if the directory is spelled with a dot first. -/
theorem acceptsIn_current_iff (nonempty : names ≠ []) (areNames : AreNames names)
    (isPrefix : names.map .named <+: components path) :
    acceptsIn filter ('.' :: '/' :: ofNames names) path = true ↔ filter.accepts path = true := by
  have missing : relativeTo? ('.' :: '/' :: ofNames names) path = none := by
    rw [Option.eq_none_iff_forall_ne_some]
    intro relative found
    have other := exists_relativeTo?_iff.mp ⟨relative, found⟩
    obtain ⟨first, others, rfl⟩ := List.exists_cons_of_ne_nil nonempty
    rw [components_current_ofNames nonempty areNames] at other
    obtain ⟨_, shape⟩ := isPrefix
    rw [← shape] at other
    cases (List.cons_prefix_cons.mp other).1
  rw [acceptsIn, missing, Option.getD_none]

end Directory

/-! ## Collecting in a directory -/

section Spellings

variable {position place : FileTree.Position} {included : List String} {filter : FileFilter}
  {names : List (List Char)}

theorem hasDirectory_of_resolve {path : List Char} (leads : position.resolve path = .ok place)
    (isDirectory : place.current.isDirectory = true) : position.hasDirectory path = true := by
  rw [FileTree.Position.hasDirectory, FileTree.Position.get?, leads]
  exact isDirectory

theorem Gathers.congr {files : List (List Char)} {selected other : List Char → Prop}
    (gathers : Gathers files selected) (same : ∀ path, selected path ↔ other path) :
    Gathers files other :=
  ⟨fun file member => (same file).mp (gathers.sound file member),
    fun path isSelected => gathers.complete path ((same path).mpr isSelected)⟩

/-- A pattern to include reaches a path from the place of a directory. -/
def ReachesFrom (names : List (List Char)) (place : FileTree.Position) (included : List String)
    (path : List Char) : Prop :=
  ∃ pattern ∈ included, Reaches (.ofNames names place) (dropCurrent pattern.toList) path

theorem ReachesFrom.isPrefix_and_hasFile {path : List Char}
    (reached : ReachesFrom names place included path) (nonempty : names ≠ [])
    (areNames : AreNames names) (wellNamed : position.WellNamed)
    (leads : position.resolve (ofNames names) = .ok place) :
    names.map .named <+: components path ∧ position.hasFile path = true := by
  obtain ⟨pattern, -, reaches⟩ := reached
  exact reaches.isPrefix_and_hasFile nonempty areNames wellNamed leads

/-- A spelling of a directory stands for what is reached from its place and accepted under that
spelling. -/
theorem collect_spelling {spelling : List Char} {accepted : List Char → Prop}
    (nonempty : names ≠ []) (areNames : AreNames names) (wellNamed : position.WellNamed)
    (leads : position.resolve (ofNames names) = .ok place)
    (isDirectory : position.hasDirectory spelling = true)
    (relative : ∀ pattern, isAbsolute (patternIn spelling pattern) = false)
    (sameReach : ∀ pattern path, Reaches (.here position) (patternIn spelling pattern) path ↔
      Reaches (.ofNames names place) (dropCurrent pattern.toList) path)
    (asked : ∀ path, names.map .named <+: components path →
      (acceptsIn filter spelling path = true ↔ accepted path)) :
    ((∃ files, collect position included filter [spelling] = .ok files) ↔
      ∀ pattern ∈ included, IsWalkable (dropCurrent pattern.toList)) ∧
      ∀ files, collect position included filter [spelling] = .ok files →
        Gathers files fun path => ReachesFrom names place included path ∧ accepted path := by
  obtain ⟨succeeds, gathers⟩ :=
    @collect_of_hasDirectory position included filter spelling isDirectory relative
  refine ⟨succeeds.trans (forall₂_congr fun _ _ => isWalkable_patternIn_iff), ?_⟩
  intro files collected
  refine (gathers files collected).congr fun path => ?_
  simp only [sameReach]
  refine and_congr_right fun reached => asked path ?_
  exact (ReachesFrom.isPrefix_and_hasFile reached nonempty areNames wellNamed leads).1

/-- In a directory that is given by its names, the filter is asked about relative paths. -/
theorem collect_ofNames (nonempty : names ≠ []) (areNames : AreNames names)
    (wellNamed : position.WellNamed) (leads : position.resolve (ofNames names) = .ok place)
    (isDirectory : place.current.isDirectory = true) :
    ((∃ files, collect position included filter [ofNames names] = .ok files) ↔
      ∀ pattern ∈ included, IsWalkable (dropCurrent pattern.toList)) ∧
      ∀ files, collect position included filter [ofNames names] = .ok files →
        Gathers files fun path => ReachesFrom names place included path ∧
          ∃ relative, relativeTo? (ofNames names) path = some relative ∧
            filter.accepts relative = true :=
  collect_spelling nonempty areNames wellNamed leads (hasDirectory_of_resolve leads isDirectory)
    (isAbsolute_patternIn (ofNames_ne_nil nonempty areNames) (isAbsolute_ofNames areNames))
    (fun _ _ => reaches_in_directory nonempty areNames leads)
    (fun _ isPrefix => acceptsIn_ofNames_iff areNames isPrefix)

/-- With a dot in front of the names, the filter is asked about whole paths. -/
theorem collect_current_ofNames (nonempty : names ≠ []) (areNames : AreNames names)
    (wellNamed : position.WellNamed) (leads : position.resolve (ofNames names) = .ok place)
    (isDirectory : place.current.isDirectory = true) :
    ((∃ files, collect position included filter ['.' :: '/' :: ofNames names] = .ok files) ↔
      ∀ pattern ∈ included, IsWalkable (dropCurrent pattern.toList)) ∧
      ∀ files, collect position included filter ['.' :: '/' :: ofNames names] = .ok files →
        Gathers files fun path => ReachesFrom names place included path ∧
          filter.accepts path = true := by
  have here : position.current.isFile = false := by
    obtain ⟨first, others, rfl⟩ := List.exists_cons_of_ne_nil nonempty
    rw [FileTree.Position.resolve_ofNames nonempty areNames, List.foldlM_cons] at leads
    obtain ⟨_, stepped, -⟩ := exists_of_bind_eq_ok leads
    exact FileTree.Position.isFile_eq_false_of_step stepped
  have dotted := FileTree.Position.resolve_current_ofNames nonempty areNames here
  refine collect_spelling nonempty areNames wellNamed leads
    (hasDirectory_of_resolve (dotted.trans leads) isDirectory)
    (isAbsolute_patternIn (List.cons_ne_nil _ _) rfl) (fun pattern path => ?_)
    (fun _ isPrefix => acceptsIn_current_iff nonempty areNames isPrefix)
  rw [patternIn_current, reaches_behind_current here]
  exact reaches_in_directory nonempty areNames leads

/-- Collecting in a directory succeeds for both spellings exactly if every component of every
pattern to include, without a leading dot, is a pattern. What is collected are the files that these
patterns reach from the directory and the filter accepts: by the path relative to the directory if it
is given by its names, by the whole path if a dot stands in front of them. A pattern without white
space at its ends is walked as the filter compares it. -/
theorem collect_directory (nonempty : names ≠ []) (areNames : AreNames names)
    (wellNamed : position.WellNamed) (leads : position.resolve (ofNames names) = .ok place)
    (isDirectory : place.current.isDirectory = true) (included : List String)
    (filter : FileFilter) :
    (∀ spelling ∈ [ofNames names, '.' :: '/' :: ofNames names],
      ((∃ files, collect position included filter [spelling] = .ok files) ↔
        ∀ pattern ∈ included, IsWalkable (dropCurrent pattern.toList))) ∧
      (∀ files, collect position included filter [ofNames names] = .ok files →
        Gathers files fun path => ReachesFrom names place included path ∧
          ∃ relative, relativeTo? (ofNames names) path = some relative ∧
            filter.accepts relative = true) ∧
      (∀ files, collect position included filter ['.' :: '/' :: ofNames names] = .ok files →
        Gathers files fun path => ReachesFrom names place included path ∧
          filter.accepts path = true) ∧
      (∀ path, ReachesFrom names place included path →
        names.map .named <+: components path ∧ position.hasFile path = true) ∧
      ∀ pattern ∈ included, Text.trim pattern.toList = pattern.toList →
        FileFilter.normalize pattern = dropCurrent pattern.toList := by
  obtain ⟨plainly, gathersPlain⟩ :=
    @collect_ofNames _ _ included filter _ nonempty areNames wellNamed leads isDirectory
  obtain ⟨dotted, gathersDotted⟩ :=
    @collect_current_ofNames _ _ included filter _ nonempty areNames wellNamed leads isDirectory
  refine ⟨?_, gathersPlain, gathersDotted, fun path reached =>
    reached.isPrefix_and_hasFile nonempty areNames wellNamed leads, fun pattern _ trimmed => ?_⟩
  · exact List.forall_mem_cons.mpr ⟨plainly, List.forall_mem_singleton.mpr dotted⟩
  · rw [FileFilter.normalize, trimmed]

/-- A directory with a file in a directory. -/
def builtApp : FileTree :=
  .directory [("dist".toList, .directory [("a.ts".toList, .file (some "var a = 1;".toList))])]

/-- The root around it. -/
def builtRoot : FileTree := .directory [("app".toList, builtApp)]

theorem wellNamed_builtRoot : (FileTree.Position.root builtRoot).WellNamed where
  current := by
    refine .directory (by decide) (by decide) (List.forall_mem_singleton.mpr ?_)
    refine .directory (by decide) (by decide) (List.forall_mem_singleton.mpr ?_)
    exact .directory (by decide) (by decide) (List.forall_mem_singleton.mpr (.file _))
  outer := nofun

/-- The file is collected, so it is reached from the directory. -/
theorem collect_directory_builtApp :
    ((FileTree.Position.root builtRoot).WellNamed ∧ AreNames ["app".toList] ∧
      (FileTree.Position.root builtRoot).resolve (ofNames ["app".toList]) =
        .ok ⟨builtApp, [builtRoot]⟩ ∧ builtApp.isDirectory = true) ∧
      ∃ filter, FileFilter.ofPatterns ["dist/*.ts"] [] = .ok filter ∧
        collect (.root builtRoot) ["dist/*.ts"] filter [ofNames ["app".toList]] =
          .ok ["app/dist/a.ts".toList] ∧
        ReachesFrom ["app".toList] ⟨builtApp, [builtRoot]⟩ ["dist/*.ts"]
          "app/dist/a.ts".toList := by
  have leads : (FileTree.Position.root builtRoot).resolve (ofNames ["app".toList]) =
      .ok ⟨builtApp, [builtRoot]⟩ := rfl
  obtain ⟨filter, isFilter, collected⟩ :
      ∃ filter, FileFilter.ofPatterns ["dist/*.ts"] [] = .ok filter ∧
        collect (.root builtRoot) ["dist/*.ts"] filter [ofNames ["app".toList]] =
          .ok ["app/dist/a.ts".toList] :=
    ⟨_, rfl, by decide +kernel⟩
  obtain ⟨-, gathers, -⟩ := collect_directory (List.cons_ne_nil _ _) (by decide)
    wellNamed_builtRoot leads rfl ["dist/*.ts"] filter
  exact ⟨⟨wellNamed_builtRoot, by decide, leads, rfl⟩, filter, isFilter, collected,
    ((gathers _ collected).sound _ (List.mem_singleton_self _)).1⟩

/-- A directory that is excluded by its path in another one is left out if that one is given by its
name, and is not left out with a dot in front of the name. -/
theorem dottedDirectory_ignoresExcludes :
    ∃ filter, FileFilter.ofPatterns ["**/*.ts"] ["dist/*"] = .ok filter ∧
      collect (.root builtRoot) ["**/*.ts"] filter ["app".toList] = .ok [] ∧
      collect (.root builtRoot) ["**/*.ts"] filter ["./app".toList] =
        .ok ["app/dist/a.ts".toList] :=
  ⟨_, rfl, by decide +kernel, by decide +kernel⟩

end Spellings

end ScriptLint.Command
