import ScriptLint.Command.Basic
import ScriptLint.Proofs.Outcome
import ScriptLint.Proofs.Rule.Signature

/-!
# How checking files ends

The relation `LintEnds` says with which number the program ends when it is asked to check files,
with one case for each reason. It depends on the file tree, on the working directory and on what is
asked for, and not on how the results are to look. The cases exclude one another, and one of them
always holds.
-/

namespace ScriptLint.Command

variable {position : FileTree.Position} {directory : List Char} {configPath : Option (List Char)}
  {paths files : List (List Char)} {denyWarnings : Bool} {configuration : Configuration}

/-- The issues of a text. -/
def issuesIn (configuration : Configuration) (text : List Char) : List Issue :=
  (Linter.lint { sizeLimit := configuration.maxFileSize } ⟨text⟩ configuration.rules).issues

/-- The configuration is loaded, and the files to check are collected with it. -/
def Collects (position : FileTree.Position) (directory : List Char)
    (configPath : Option (List Char)) (paths : List (List Char)) (configuration : Configuration)
    (files : List (List Char)) : Prop :=
  ∃ context filter, Context.load { position, directory } configPath = .ok context ∧
    context.configuration = configuration ∧ configuration.filter = .ok filter ∧
    collect position configuration.included filter paths = .ok files

/-- All files can be read. -/
def AllRead (position : FileTree.Position) (files : List (List Char)) : Prop :=
  ∀ path ∈ files, ∃ text, position.read path = .ok text

/-- Some file has an issue. -/
def SomeFlawed (position : FileTree.Position) (configuration : Configuration)
    (files : List (List Char)) : Prop :=
  ∃ path ∈ files, ∃ text, position.read path = .ok text ∧ issuesIn configuration text ≠ []

/-- The number with which checking files ends. -/
inductive LintEnds (position : FileTree.Position) (directory : List Char)
    (configPath : Option (List Char)) (paths : List (List Char)) (denyWarnings : Bool) :
    Nat → Prop where
  | unloaded {failure : ContextError} :
      Context.load { position, directory } configPath = .error failure →
      LintEnds position directory configPath paths denyWarnings 2
  | uncollected {context : Context} {filter : FileFilter} {error : CollectionError} :
      Context.load { position, directory } configPath = .ok context →
      context.configuration.filter = .ok filter →
      collect position context.configuration.included filter paths = .error error →
      LintEnds position directory configPath paths denyWarnings 4
  | unread {configuration : Configuration} {files : List (List Char)} :
      Collects position directory configPath paths configuration files →
      ¬ AllRead position files →
      LintEnds position directory configPath paths denyWarnings 4
  | flawed {configuration : Configuration} {files : List (List Char)} :
      Collects position directory configPath paths configuration files →
      AllRead position files → denyWarnings = true → SomeFlawed position configuration files →
      LintEnds position directory configPath paths denyWarnings 1
  | clean {configuration : Configuration} {files : List (List Char)} :
      Collects position directory configPath paths configuration files →
      AllRead position files → ¬ (denyWarnings = true ∧ SomeFlawed position configuration files) →
      LintEnds position directory configPath paths denyWarnings 0

/-! ## The filter of a configuration that was loaded -/

theorem exists_filter_default : ∃ filter, Configuration.default.filter = .ok filter :=
  ⟨_, rfl⟩

theorem exists_filter_of_load {path contents : List Char} {loaded : LoadedConfiguration}
    (succeeded : Configuration.load path contents = .ok loaded) :
    ∃ filter, loaded.configuration.filter = .ok filter := by
  unfold Configuration.load at succeeded
  split at succeeded
  · cases succeeded
  · obtain ⟨value, _, succeeded⟩ := exists_of_bind_eq_ok succeeded
    obtain ⟨configuration, _, succeeded⟩ := exists_of_bind_eq_ok succeeded
    obtain ⟨filter, filterEq, ⟨⟩⟩ := exists_of_bind_eq_ok succeeded
    exact ⟨filter, exists_of_mapError_eq_ok filterEq⟩

/-- The patterns of a configuration are compiled when it is loaded, so they can be compiled
again. -/
theorem Context.exists_filter {surroundings : Surroundings} {context : Context}
    (succeeded : Context.load surroundings configPath = .ok context) :
    ∃ filter, context.configuration.filter = .ok filter := by
  unfold Context.load at succeeded
  split at succeeded
  · cases succeeded
    exact exists_filter_default
  · split at succeeded
    · next loaded loadedEq =>
        cases succeeded
        obtain ⟨contents, _, fromContents⟩ := exists_of_bind_eq_ok loadedEq
        exact exists_filter_of_load fromContents
    · cases succeeded

/-! ## The result of checking files -/

theorem unreadable?_checkFile_eq_none {linter : Linter} {settings : RuleSettings}
    {path : List Char} :
    (checkFile linter settings position path).unreadable? = none ↔
      ∃ text, position.read path = .ok text := by
  unfold checkFile
  cases position.read path with
  | error error => simp [FileVerdict.unreadable?]
  | ok text =>
      by_cases none : (linter.lint ⟨text⟩ settings).issues.isEmpty = true
      · simp [none, FileVerdict.unreadable?]
      · simp [none, FileVerdict.unreadable?]

theorem exists_report?_checkFile {path : List Char} {issue : Issue} :
    (∃ report, (checkFile { sizeLimit := configuration.maxFileSize } configuration.rules position
        path).report? = some report ∧ issue ∈ report.issues) ↔
      ∃ text, position.read path = .ok text ∧ issue ∈ issuesIn configuration text := by
  unfold checkFile issuesIn
  cases position.read path with
  | error error => simp [FileVerdict.report?]
  | ok text =>
      by_cases none : (Linter.lint { sizeLimit := configuration.maxFileSize } ⟨text⟩
          configuration.rules).issues.isEmpty = true
      · have noIssue := List.isEmpty_iff.mp none
        simp [noIssue, FileVerdict.report?]
      · simp [none, FileVerdict.report?]

namespace LintResult

theorem unreadable_eq_nil_iff :
    (ofFiles configuration position files).unreadable = [] ↔ AllRead position files := by
  have unreadable : (ofFiles configuration position files).unreadable =
      (files.map (checkFile { sizeLimit := configuration.maxFileSize } configuration.rules
        position)).filterMap FileVerdict.unreadable? := rfl
  rw [unreadable, List.filterMap_map, List.filterMap_eq_nil_iff]
  exact forall₂_congr fun path _ => unreadable?_checkFile_eq_none

theorem mem_issues {issue : Issue} :
    issue ∈ (ofFiles configuration position files).issues ↔
      ∃ path ∈ files, ∃ text, position.read path = .ok text ∧
        issue ∈ issuesIn configuration text := by
  have issues : (ofFiles configuration position files).issues =
      ((files.map (checkFile { sizeLimit := configuration.maxFileSize } configuration.rules
        position)).filterMap FileVerdict.report?).flatMap FileReport.issues := rfl
  rw [issues, List.filterMap_map]
  constructor
  · intro member
    obtain ⟨report, reported, issueMember⟩ := List.mem_flatMap.mp member
    obtain ⟨path, pathMember, found⟩ := List.mem_filterMap.mp reported
    exact ⟨path, pathMember, exists_report?_checkFile.mp ⟨report, found, issueMember⟩⟩
  · rintro ⟨path, pathMember, inText⟩
    obtain ⟨report, found, issueMember⟩ := exists_report?_checkFile.mpr inText
    exact List.mem_flatMap.mpr
      ⟨report, List.mem_filterMap.mpr ⟨path, pathMember, found⟩, issueMember⟩

theorem issues_ne_nil_iff :
    (ofFiles configuration position files).issues ≠ [] ↔
      SomeFlawed position configuration files := by
  constructor
  · intro some
    obtain ⟨issue, member⟩ := List.exists_mem_of_ne_nil _ some
    obtain ⟨path, pathMember, text, read, issueMember⟩ := mem_issues.mp member
    exact ⟨path, pathMember, text, read, List.ne_nil_of_mem issueMember⟩
  · rintro ⟨path, pathMember, text, read, some⟩
    obtain ⟨issue, issueMember⟩ := List.exists_mem_of_ne_nil _ some
    exact List.ne_nil_of_mem (mem_issues.mpr ⟨path, pathMember, text, read, issueMember⟩)

/-- The rules of the catalogue report warnings only. -/
theorem errorCount_eq_zero : (ofFiles configuration position files).errorCount = 0 := by
  unfold errorCount
  rw [List.countP_eq_zero]
  intro issue member
  obtain ⟨path, _, text, _, issueMember⟩ := mem_issues.mp member
  have isWarning : issue.severity = .warning := Linter.severity_of_mem_issues issueMember
  rw [isWarning]
  decide

theorem warningCount_pos_iff :
    0 < (ofFiles configuration position files).warningCount ↔
      SomeFlawed position configuration files := by
  unfold warningCount
  rw [errorCount_eq_zero, Nat.sub_zero, List.length_pos_iff]
  exact issues_ne_nil_iff

theorem status_of_not_allRead (unread : ¬ AllRead position files) :
    (ofFiles configuration position files).status denyWarnings = .fileFailure := by
  have some : (ofFiles configuration position files).unreadable ≠ [] :=
    fun none => unread (unreadable_eq_nil_iff.mp none)
  simp [status, some]

theorem status_of_allRead (read : AllRead position files) :
    (ofFiles configuration position files).status denyWarnings =
      if denyWarnings = true ∧ 0 < (ofFiles configuration position files).warningCount then
        .lintFailure
      else .success := by
  have none : (ofFiles configuration position files).unreadable = [] :=
    unreadable_eq_nil_iff.mpr read
  simp [status, none, errorCount_eq_zero]

end LintResult

/-! ## The cases -/

variable {surroundings : Surroundings} {appearance : Appearance} {code : Nat}

theorem lint_status_of_collects
    (collects : Collects surroundings.position surroundings.directory configPath paths
      configuration files) :
    (lint surroundings appearance configPath paths denyWarnings).status =
      (LintResult.ofFiles configuration surroundings.position files).status denyWarnings := by
  obtain ⟨context, filter, loaded, rfl, filterEq, collected⟩ := collects
  have loadedHere : Context.load surroundings configPath = .ok context := loaded
  have targets : lintTargets surroundings configPath paths = .ok (context, files) := by
    simp [lintTargets, loadedHere, filterEq, collected, Except.mapError, bind, Except.bind]
  have checked : lintFiles surroundings configPath paths =
      .ok (context, .ofFiles context.configuration surroundings.position files) := by
    simp [lintFiles, targets, bind, Except.bind]
  unfold lint
  rw [checked]

theorem lint_status_of_failure {failure : LintFailure}
    (failed : lintTargets surroundings configPath paths = .error failure) :
    (lint surroundings appearance configPath paths denyWarnings).status =
      (failure.outcome appearance).status := by
  have failedChecks : lintFiles surroundings configPath paths = .error failure := by
    simp [lintFiles, failed, bind, Except.bind]
  unfold lint
  rw [failedChecks]

theorem LintEnds.eq_code
    (ends : LintEnds surroundings.position surroundings.directory configPath paths denyWarnings
      code) :
    (lint surroundings appearance configPath paths denyWarnings).status.code = code := by
  cases ends with
  | @unloaded failure unloaded =>
      have unloadedHere : Context.load surroundings configPath = .error failure := unloaded
      have failed : lintTargets surroundings configPath paths = .error (.context failure) := by
        simp [lintTargets, unloadedHere, Except.mapError, bind, Except.bind]
      rw [lint_status_of_failure failed]
      rfl
  | @uncollected context filter error loaded filterEq uncollected =>
      have loadedHere : Context.load surroundings configPath = .ok context := loaded
      have failed : lintTargets surroundings configPath paths =
          .error (.collection context error) := by
        simp [lintTargets, loadedHere, filterEq, uncollected, Except.mapError, bind, Except.bind]
      rw [lint_status_of_failure failed]
      rfl
  | unread collects unread =>
      rw [lint_status_of_collects collects, LintResult.status_of_not_allRead unread]
      rfl
  | flawed collects read denies flawed =>
      have warns := LintResult.warningCount_pos_iff.mpr flawed
      rw [lint_status_of_collects collects, LintResult.status_of_allRead read,
        if_pos ⟨denies, warns⟩]
      rfl
  | clean collects read notFlawed =>
      rw [← LintResult.warningCount_pos_iff] at notFlawed
      rw [lint_status_of_collects collects, LintResult.status_of_allRead read, if_neg notFlawed]
      rfl

theorem exists_lintEnds (position : FileTree.Position) (directory : List Char)
    (configPath : Option (List Char)) (paths : List (List Char)) (denyWarnings : Bool) :
    ∃ code, LintEnds position directory configPath paths denyWarnings code := by
  cases loaded : Context.load { position, directory } configPath with
  | error failure => exact ⟨2, .unloaded loaded⟩
  | ok context =>
      obtain ⟨filter, filterEq⟩ := Context.exists_filter loaded
      cases collected : collect position context.configuration.included filter paths with
      | error error => exact ⟨4, .uncollected loaded filterEq collected⟩
      | ok files =>
          have collects : Collects position directory configPath paths context.configuration
              files := ⟨context, filter, loaded, rfl, filterEq, collected⟩
          by_cases read : AllRead position files
          · by_cases flawed : denyWarnings = true ∧
                SomeFlawed position context.configuration files
            · exact ⟨1, .flawed collects read flawed.1 flawed.2⟩
            · exact ⟨0, .clean collects read flawed⟩
          · exact ⟨4, .unread collects read⟩

theorem run_code_iff {words : List (List Char)} {invocation : Invocation}
    (read : readArguments words = .ok invocation)
    (isLint : invocation.action = .lint paths denyWarnings) :
    (run words surroundings).status.code = code ↔
      LintEnds surroundings.position surroundings.directory invocation.configPath paths
        denyWarnings code := by
  have ran : run words surroundings =
      lint surroundings (invocation.appearance surroundings.environment) invocation.configPath
        paths denyWarnings := by
    simp only [run, read, Invocation.run, isLint]
  rw [ran]
  constructor
  · intro isCode
    obtain ⟨found, ends⟩ := exists_lintEnds surroundings.position surroundings.directory
      invocation.configPath paths denyWarnings
    have same : found = code := ends.eq_code.symm.trans isCode
    exact same ▸ ends
  · exact LintEnds.eq_code

/-- The program ends with the number for its file tree, its working directory and what it is asked
for. Two runs that agree in these end alike, whatever their formats, their flags for colours and
notes, and their environments. -/
theorem run_lint_ends {words : List (List Char)} {surroundings : Surroundings}
    {invocation : Invocation} {paths : List (List Char)} {denyWarnings : Bool}
    (read : readArguments words = .ok invocation)
    (isLint : invocation.action = .lint paths denyWarnings) :
    (∀ code, (run words surroundings).status.code = code ↔
      LintEnds surroundings.position surroundings.directory invocation.configPath paths
        denyWarnings code) ∧
    ∀ otherWords otherSurroundings other, readArguments otherWords = .ok other →
      other.action = invocation.action → other.configPath = invocation.configPath →
      otherSurroundings.position = surroundings.position →
      otherSurroundings.directory = surroundings.directory →
        (run otherWords otherSurroundings).status.code =
          (run words surroundings).status.code := by
  refine ⟨fun code => run_code_iff read isLint, ?_⟩
  intro otherWords otherSurroundings other otherRead sameAction sameConfig samePosition
    sameDirectory
  have ends : LintEnds surroundings.position surroundings.directory invocation.configPath paths
      denyWarnings (run words surroundings).status.code := (run_code_iff read isLint).mp rfl
  rw [← samePosition, ← sameDirectory, ← sameConfig] at ends
  exact (run_code_iff otherRead (sameAction.trans isLint)).mpr ends

/-- A warning in a file that is given, with warnings denied. -/
theorem run_lint_ends_denied :
    let words := ["lint", "--deny-warnings", "-f", "json", "a.ts"].map String.toList
    let position := FileTree.Position.root
      (.directory [("a.ts".toList, .file (some "var a = 1;".toList))])
    let surroundings : Surroundings := { position, directory := ['/'] }
    readArguments words = .ok
        { action := .lint ["a.ts".toList] true, format := .json } ∧
      (run words surroundings).status.code = 1 := by
  intro words position surroundings
  have read : readArguments words = .ok
      { action := .lint ["a.ts".toList] true, format := .json } := by
    decide +kernel
  have collects : Collects position ['/'] none ["a.ts".toList] .default ["a.ts".toList] := by
    refine ⟨{}, _, rfl, rfl, rfl, ?_⟩
    decide +kernel
  have readable : position.read "a.ts".toList = .ok "var a = 1;".toList := rfl
  have allRead : AllRead position ["a.ts".toList] := by
    intro path member
    rw [List.mem_singleton.mp member]
    exact ⟨_, readable⟩
  have flawed : SomeFlawed position .default ["a.ts".toList] := by
    refine ⟨"a.ts".toList, List.mem_singleton_self _, _, readable, ?_⟩
    decide +kernel
  have ends : LintEnds position ['/'] none ["a.ts".toList] true 1 :=
    .flawed collects allRead rfl flawed
  exact ⟨read, ((run_lint_ends read rfl).1 1).mpr ends⟩

end ScriptLint.Command
