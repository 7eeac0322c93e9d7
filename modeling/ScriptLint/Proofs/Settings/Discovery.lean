import ScriptLint.Settings.Discovery
import ScriptLint.Proofs.FileTree
import Mathlib.Data.List.Infix

/-!
# The nearest configuration file

A directory and its ancestors are given by a list of names and its prefixes. The search visits all
of them, the longest prefix first, and ends at the root. It finds a file exactly if one of these
directories holds a file of one of the five names, and then the preferred one in the nearest such
directory. What is no file, a directory with such a name included, does not matter.
-/

namespace ScriptLint.Configuration

open FileTree ScriptLint.Path

/-- A file is in a directory and has the first of the names of configuration files that a file there
has. -/
def IsPreferredFile (root : FileTree) (outer : List (List Char)) (file : List Char) : Prop :=
  ∃ preferred later, fileNames = preferred ++ file :: later ∧ root.HoldsFile (outer ++ [file]) ∧
    ∀ other ∈ preferred, ¬root.HoldsFile (outer ++ [other])

/-- A file is the preferred one of a directory that encloses another, and no directory between the
two holds a configuration file. -/
structure IsNearestFile (root : FileTree) (names outer : List (List Char)) (file : List Char) :
    Prop where
  encloses : outer <+: names
  isPreferred : IsPreferredFile root outer file
  absent_nearer : ∀ nearer, outer <+: nearer → nearer <+: names → nearer ≠ outer →
    ∀ other ∈ fileNames, ¬root.HoldsFile (nearer ++ [other])

theorem areNames_fileNames : AreNames fileNames := by
  decide

variable {root : FileTree} {position : Position} {names outer : List (List Char)}
  {name file path : List Char}

/-! ## One directory -/

theorem findIn?_fromRoot (areNames : AreNames names) (position : Position) :
    findIn? position (fromRoot names) =
      (fileNames.find? fun file => position.top.current.HoldsFile (names ++ [file])).map
        fun file => fromRoot (names ++ [file]) := by
  have joined : fileNames.map (join (fromRoot names)) =
      fileNames.map fun file => fromRoot (names ++ [file]) :=
    List.map_congr_left fun file member => join_fromRoot areNames (areNames_fileNames file member)
  have tested : ∀ file ∈ fileNames,
      (position.hasFile ∘ fun file => fromRoot (names ++ [file])) file =
        decide (position.top.current.HoldsFile (names ++ [file])) := by
    intro file member
    have areAll : AreNames (names ++ [file]) :=
      List.forall_mem_append.mpr ⟨areNames, by simpa using areNames_fileNames file member⟩
    rw [Bool.eq_iff_iff, decide_eq_true_iff]
    exact Position.hasFile_fromRoot (List.append_ne_nil_of_right_ne_nil _ (List.cons_ne_nil _ _))
      areAll position
  rw [findIn?, joined, List.find?_map, ← List.head?_filter, ← List.head?_filter,
    List.filter_congr tested]

theorem findIn?_eq_some_iff (areNames : AreNames names) :
    findIn? position (fromRoot names) = some path ↔
      ∃ file, IsPreferredFile position.top.current names file ∧
        path = fromRoot (names ++ [file]) := by
  simp only [findIn?_fromRoot areNames, Option.map_eq_some_iff, List.find?_eq_some_iff_append,
    decide_eq_true_eq, Bool.not_eq_true', decide_eq_false_iff_not, IsPreferredFile]
  constructor
  · rintro ⟨file, ⟨holds, preferred, later, shape, absent⟩, rfl⟩
    exact ⟨file, ⟨preferred, later, shape, holds, absent⟩, rfl⟩
  · rintro ⟨file, ⟨preferred, later, shape, holds, absent⟩, rfl⟩
    exact ⟨file, ⟨holds, preferred, later, shape, absent⟩, rfl⟩

theorem findIn?_eq_none_iff (areNames : AreNames names) :
    findIn? position (fromRoot names) = none ↔
      ∀ file ∈ fileNames, ¬position.top.current.HoldsFile (names ++ [file]) := by
  simp only [findIn?_fromRoot areNames, Option.map_eq_none_iff, List.find?_eq_none,
    decide_eq_true_eq]

/-! ## The directories around a directory -/

/-- The directories around a path of names are its prefixes, and more steps find no more. -/
theorem enclosing_fromRoot (areNames : AreNames names) {steps : Nat}
    (enough : names.length ≤ steps) :
    enclosing steps (fromRoot names) = names.inits.reverse.map fromRoot := by
  induction names using List.reverseRecOn generalizing steps with
  | nil =>
      cases steps with
      | zero => rfl
      | succ steps => rw [enclosing, parent?_root]; rfl
  | append_singleton names name inductionHypothesis =>
      obtain ⟨areEarlier, isName⟩ := List.forall_mem_append.mp areNames
      rw [List.forall_mem_singleton] at isName
      rw [List.length_append, List.length_singleton] at enough
      obtain ⟨fewer, rfl⟩ : ∃ fewer, steps = fewer + 1 := ⟨steps - 1, by omega⟩
      rw [enclosing, parent?_fromRoot_concat areEarlier isName, Option.map_some, Option.getD_some,
        inductionHypothesis areEarlier (by omega), List.inits_append]
      simp

theorem find?_fromRoot (areNames : AreNames names) (position : Position) :
    find? position (fromRoot names) =
      (names.inits.reverse.map fromRoot).findSome? (findIn? position) := by
  have enough : names.length ≤ (components (fromRoot names)).length := by
    rw [components_fromRoot areNames, List.length_cons, List.length_map]
    exact Nat.le_succ _
  rw [find?, enclosing_fromRoot areNames enough]

theorem find?_fromRoot_nil (position : Position) :
    find? position (fromRoot []) = findIn? position (fromRoot []) := by
  rw [find?_fromRoot (List.forall_mem_nil IsName), List.inits, List.reverse_singleton,
    List.map_singleton, List.findSome?_singleton]

/-- A configuration file in a directory comes before those in the directories around it. -/
theorem find?_fromRoot_concat (areNames : AreNames (names ++ [name])) (position : Position) :
    find? position (fromRoot (names ++ [name])) =
      (findIn? position (fromRoot (names ++ [name]))).or (find? position (fromRoot names)) := by
  have areEarlier := (List.forall_mem_append.mp areNames).1
  have inits : (names ++ [name]).inits.reverse = (names ++ [name]) :: names.inits.reverse := by
    rw [List.inits_append]
    simp
  rw [find?_fromRoot areNames, find?_fromRoot areEarlier, inits, List.map_cons,
    List.findSome?_cons]
  cases findIn? position (fromRoot (names ++ [name])) <;> rfl

theorem isNearestFile_nil :
    IsNearestFile root [] outer file ↔ outer = [] ∧ IsPreferredFile root outer file := by
  constructor
  · rintro ⟨encloses, isPreferred, -⟩
    exact ⟨List.prefix_nil.mp encloses, isPreferred⟩
  · rintro ⟨rfl, isPreferred⟩
    exact ⟨List.nil_prefix, isPreferred, fun nearer _ inside isNearer =>
      absurd (List.prefix_nil.mp inside) isNearer⟩

/-- The nearest file is in the directory itself, or else nearest to the directory around it. -/
theorem isNearestFile_concat :
    IsNearestFile root (names ++ [name]) outer file ↔
      (outer = names ++ [name] ∧ IsPreferredFile root outer file) ∨
        ((∀ other ∈ fileNames, ¬root.HoldsFile (names ++ [name] ++ [other])) ∧
          IsNearestFile root names outer file) := by
  constructor
  · rintro ⟨encloses, isPreferred, absent⟩
    rcases List.prefix_concat_iff.mp encloses with here | further
    · exact .inl ⟨here, isPreferred⟩
    · refine .inr ⟨absent _ encloses (List.prefix_refl _) ?_, further, isPreferred, ?_⟩
      · intro same
        have lengths := further.length_le
        rw [← same, List.length_append, List.length_singleton] at lengths
        omega
      · exact fun nearer outside inside =>
          absent nearer outside (inside.trans (List.prefix_append _ _))
  · rintro (⟨rfl, isPreferred⟩ | ⟨absentHere, further, isPreferred, absent⟩)
    · exact ⟨List.prefix_refl _, isPreferred, fun nearer outside inside isNearer =>
        absurd (inside.eq_of_length_le outside.length_le) isNearer⟩
    · refine ⟨further.trans (List.prefix_append _ _), isPreferred, ?_⟩
      intro nearer outside inside isNearer
      rcases List.prefix_concat_iff.mp inside with rfl | further
      · exact absentHere
      · exact absent nearer outside further isNearer

theorem find?_eq_some_iff (areNames : AreNames names) :
    find? position (fromRoot names) = some path ↔
      ∃ outer file, IsNearestFile position.top.current names outer file ∧
        path = fromRoot (outer ++ [file]) := by
  induction names using List.reverseRecOn with
  | nil =>
      rw [find?_fromRoot_nil, findIn?_eq_some_iff areNames]
      simp only [isNearestFile_nil]
      constructor
      · rintro ⟨file, isPreferred, found⟩
        exact ⟨[], file, ⟨rfl, isPreferred⟩, found⟩
      · rintro ⟨outer, file, ⟨rfl, isPreferred⟩, found⟩
        exact ⟨file, isPreferred, found⟩
  | append_singleton names name inductionHypothesis =>
      have areEarlier := (List.forall_mem_append.mp areNames).1
      rw [find?_fromRoot_concat areNames, Option.or_eq_some_iff, findIn?_eq_some_iff areNames,
        findIn?_eq_none_iff areNames, inductionHypothesis areEarlier]
      simp only [isNearestFile_concat]
      constructor
      · rintro (⟨file, isPreferred, found⟩ | ⟨absent, outer, file, isNearest, found⟩)
        · exact ⟨_, file, .inl ⟨rfl, isPreferred⟩, found⟩
        · exact ⟨outer, file, .inr ⟨absent, isNearest⟩, found⟩
      · rintro ⟨outer, file, ⟨rfl, isPreferred⟩ | ⟨absent, isNearest⟩, found⟩
        · exact .inl ⟨file, isPreferred, found⟩
        · exact .inr ⟨absent, outer, file, isNearest, found⟩

/-- Some file is found exactly if a directory on the way to the root holds a configuration file. -/
theorem isSome_find?_iff (areNames : AreNames names) :
    (find? position (fromRoot names)).isSome ↔
      ∃ outer, outer <+: names ∧
        ∃ file ∈ fileNames, position.top.current.HoldsFile (outer ++ [file]) := by
  induction names using List.reverseRecOn with
  | nil =>
      rw [find?_fromRoot_nil, ← Option.ne_none_iff_isSome, Ne, findIn?_eq_none_iff areNames]
      simp
  | append_singleton names name inductionHypothesis =>
      have areEarlier := (List.forall_mem_append.mp areNames).1
      rw [find?_fromRoot_concat areNames, Option.isSome_or, Bool.or_eq_true,
        inductionHypothesis areEarlier, ← Option.ne_none_iff_isSome, Ne,
        findIn?_eq_none_iff areNames]
      simp only [List.prefix_concat_iff, not_forall, not_not, exists_prop]
      constructor
      · rintro (holds | ⟨outer, encloses, holds⟩)
        · exact ⟨_, .inl rfl, holds⟩
        · exact ⟨outer, .inr encloses, holds⟩
      · rintro ⟨outer, rfl | encloses, holds⟩
        · exact .inl holds
        · exact .inr ⟨outer, encloses, holds⟩

/-- For every directory given by names, whether it exists or not: the path that is found is that of
the nearest file, a path is found exactly if the directory or one around it holds a file of one of
the names, no path of a directory is found, and the directories around are the prefixes of the
names, however many steps are made. -/
theorem find?_isNearestFile (areNames : AreNames names) (position : Position) :
    (∀ path, find? position (fromRoot names) = some path ↔
      ∃ outer file, IsNearestFile position.top.current names outer file ∧
        path = fromRoot (outer ++ [file])) ∧
      ((find? position (fromRoot names)).isSome ↔
        ∃ outer, outer <+: names ∧
          ∃ file ∈ fileNames, position.top.current.HoldsFile (outer ++ [file])) ∧
      (∀ path, position.hasDirectory path = true → find? position (fromRoot names) ≠ some path) ∧
      ∀ steps, names.length ≤ steps →
        enclosing steps (fromRoot names) = names.inits.reverse.map fromRoot := by
  refine ⟨fun path => find?_eq_some_iff areNames, isSome_find?_iff areNames, ?_,
    fun steps enough => enclosing_fromRoot areNames enough⟩
  intro path isDirectory found
  rw [find?_fromRoot areNames] at found
  obtain ⟨directory, -, foundIn⟩ := List.exists_of_findSome?_eq_some found
  have isFile : position.hasFile path = true := List.find?_some foundIn
  exact absurd isDirectory (Bool.eq_false_iff.mp (Position.hasDirectory_eq_false isFile))

/-- Two directories up from one that is missing, a directory with the first of the names and a file
with the fourth one. -/
theorem find?_isNearestFile_beside_directory :
    AreNames ["a".toList, "b".toList, "c".toList] ∧
      ∃ outer file,
        IsNearestFile
          (.directory [("a".toList, .directory
            [(".tslintrc.json".toList, .directory []), (".tslintrc".toList, .file none)])])
          ["a".toList, "b".toList, "c".toList] outer file ∧
        "/a/.tslintrc".toList = fromRoot (outer ++ [file]) :=
  ⟨by decide +kernel,
    ((find?_isNearestFile (by decide +kernel)
      (.root (.directory [("a".toList, .directory
        [(".tslintrc.json".toList, .directory []), (".tslintrc".toList, .file none)])]))).1
      "/a/.tslintrc".toList).mp (by decide +kernel)⟩

end ScriptLint.Configuration
