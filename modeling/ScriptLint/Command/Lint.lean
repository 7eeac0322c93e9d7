import ScriptLint.Command.Context
import ScriptLint.Command.Files
import ScriptLint.Command.Output
import ScriptLint.Linter

/-!
# Checking files

The command collects files, reads and checks each of them, and reports the issues file by file. A
file that cannot be read is reported and does not stop the others. The status tells first whether
the configuration could be loaded, then whether all files could be collected and read, and then
whether there are issues that count as a failure.
-/

namespace ScriptLint.Command

structure FileReport where
  path : List Char
  document : Document
  issues : List Issue
  deriving Repr

/-- What checking files gives: their number, those with issues, and those that cannot be read. -/
structure LintResult where
  fileCount : Nat
  reports : List FileReport
  unreadable : List (List Char × FileError)
  deriving Repr

inductive FileVerdict where
  | clean
  | flawed (report : FileReport)
  | unreadable (path : List Char) (error : FileError)
  deriving Repr

namespace FileVerdict

def report? : FileVerdict → Option FileReport
  | flawed report => some report
  | _ => none

def unreadable? : FileVerdict → Option (List Char × FileError)
  | unreadable path error => some (path, error)
  | _ => none

end FileVerdict

def checkFile (linter : Linter) (settings : RuleSettings) (position : FileTree.Position)
    (path : List Char) : FileVerdict :=
  match position.read path with
  | .error error => .unreadable path error
  | .ok text =>
      let document : Document := ⟨text⟩
      let issues := (linter.lint document settings).issues
      if issues.isEmpty then .clean else .flawed { path, document, issues }

namespace LintResult

def ofFiles (configuration : Configuration) (position : FileTree.Position)
    (files : List (List Char)) : LintResult :=
  let linter : Linter := { sizeLimit := configuration.maxFileSize }
  let verdicts := files.map (checkFile linter configuration.rules position)
  { fileCount := files.length
    reports := verdicts.filterMap FileVerdict.report?
    unreadable := verdicts.filterMap FileVerdict.unreadable? }

def issues (result : LintResult) : List Issue := result.reports.flatMap FileReport.issues

def errorCount (result : LintResult) : Nat :=
  result.issues.countP fun issue => issue.severity == .error

def warningCount (result : LintResult) : Nat := result.issues.length - result.errorCount

def status (result : LintResult) (denyWarnings : Bool) : ExitStatus :=
  if !result.unreadable.isEmpty then .fileFailure
  else if 0 < result.errorCount || (denyWarnings && 0 < result.warningCount) then .lintFailure
  else .success

end LintResult

/-! ## Reports for people -/

def severityLabel (appearance : Appearance) : Severity → String
  | .error => appearance.paint (.bold .red) "error:"
  | .warning => appearance.paint (.bold .yellow) "warning:"
  | .info | .hint => appearance.paint (.bold .cyan) "info:"

def issueLines (appearance : Appearance) (path : List Char) (issue : Issue) : List String :=
  let path := String.ofList path
  let line := toString (issue.line + 1)
  let character := toString (issue.character + 1)
  let label := severityLabel appearance issue.severity
  ["", path ++ ":" ++ line ++ ":" ++ character ++ ": " ++ label ++ " " ++ issue.message,
    "  " ++ appearance.paint .dimmed "rule" ++ ": " ++ appearance.paint .dimmed issue.ruleId]

def verdictLine (appearance : Appearance) (result : LintResult) : String :=
  let errors := toString result.errorCount
  let warnings := toString result.warningCount
  if result.errorCount = 0 ∧ result.warningCount = 0 then
    appearance.paint (.bold .green) "✓ No linting issues found!"
  else if result.errorCount = 0 then
    appearance.paint (.bold .yellow) ("✓ Linting passed with " ++ warnings ++ " warning(s)")
  else
    appearance.paint (.colored .red)
      ("✗ Found " ++ errors ++ " error(s) and " ++ warnings ++ " warning(s)")

def summaryLines (appearance : Appearance) (elapsed : String) (result : LintResult) : List String :=
  let clock := appearance.paint .dimmed "⏱"
  ["", verdictLine appearance result,
    "  " ++ clock ++ " " ++ toString result.fileCount ++ " file(s) in " ++ elapsed ++ "s"]

/-! ## Reports for programs -/

/-- An issue with its fields in the order of their names. -/
def sortedIssue (issue : Issue) : Json :=
  match issue.toJson with
  | .object members => .ofMembers members
  | value => value

def unreadableText (entry : List Char × FileError) : String :=
  String.ofList entry.1 ++ ": " ++ entry.2.message

def FileReport.toJson (report : FileReport) : Json :=
  .ofMembers [
    ("file", .string (String.ofList report.path)),
    ("issues", .array (report.issues.map sortedIssue))]

def LintResult.toJson (result : LintResult) : Json :=
  .ofMembers [
    ("success", .bool (result.errorCount == 0)),
    ("files", .array (result.reports.map FileReport.toJson)),
    ("unreadable", .array (result.unreadable.map fun entry => .string (unreadableText entry))),
    ("stats", .ofMembers [
      ("total_files", .nat result.fileCount),
      ("files_with_issues", .nat result.reports.length),
      ("total_errors", .nat result.errorCount),
      ("total_warnings", .nat result.warningCount)])]

def annotationWord : Severity → String
  | .error => "error"
  | .warning => "warning"
  | .info | .hint => "notice"

/-- The annotation for an issue. Its columns are counted from one, and its end is the column behind
it. -/
def annotationText (report : FileReport) (issue : Issue) : String :=
  let column := issue.character + 1
  let stop := column + issue.resolvedLength (report.document.line issue.line)
  "::" ++ annotationWord issue.severity ++ " file=" ++ String.ofList report.path ++
    ",line=" ++ toString (issue.line + 1) ++ ",col=" ++ toString column ++
    ",endColumn=" ++ toString stop ++ "::" ++ issue.message ++ " [" ++ issue.ruleId ++ "]"

/-! ## The command -/

def resultLines (appearance : Appearance) (result : LintResult) : List String :=
  match appearance.format with
  | .human =>
      result.reports.flatMap fun report =>
        report.issues.flatMap (issueLines appearance report.path)
  | .json => [result.toJson.spread 0]
  | .github => result.reports.flatMap fun report => report.issues.map (annotationText report)

def unreadableLines (appearance : Appearance) (result : LintResult) : List String :=
  result.unreadable.map fun entry =>
    appearance.errorLine ("Failed to read " ++ unreadableText entry)

def warningLines (appearance : Appearance) (context : Context) : List String :=
  if appearance.hasNotes then
    context.warnings.map fun warning =>
      appearance.paint (.bold .yellow) "warning:" ++ " " ++ warning.message
  else []

/-- Why no file is checked. -/
inductive LintFailure where
  | context (failure : ContextError)
  | filter (context : Context) (invalid : InvalidPattern)
  | collection (context : Context) (error : CollectionError)
  deriving Repr

/-- Loads the configuration and collects the files to check. -/
def lintTargets (surroundings : Surroundings) (configPath : Option (List Char))
    (paths : List (List Char)) : Except LintFailure (Context × List (List Char)) := do
  let context ← (Context.load surroundings configPath).mapError .context
  let configuration := context.configuration
  let filter ← configuration.filter.mapError (.filter context)
  let files ←
    (collect surroundings.position configuration.included filter paths).mapError
      (.collection context)
  .ok (context, files)

def lintFiles (surroundings : Surroundings) (configPath : Option (List Char))
    (paths : List (List Char)) : Except LintFailure (Context × LintResult) := do
  let (context, files) ← lintTargets surroundings configPath paths
  .ok (context, .ofFiles context.configuration surroundings.position files)

def LintFailure.outcome (appearance : Appearance) : LintFailure → Outcome
  | .context failure =>
      { errors := [appearance.errorLine failure.message], status := .configurationFailure }
  | .filter loaded invalid =>
      { errors := warningLines appearance loaded ++ [appearance.errorLine invalid.message]
        status := .configurationFailure }
  | .collection loaded error =>
      { errors := warningLines appearance loaded ++ [appearance.errorLine error.message]
        status := .fileFailure }

def lint (surroundings : Surroundings) (appearance : Appearance) (configPath : Option (List Char))
    (paths : List (List Char)) (denyWarnings : Bool) : Outcome :=
  match lintFiles surroundings configPath paths with
  | .error failure => failure.outcome appearance
  | .ok (context, result) =>
      { output :=
          resultLines appearance result ++
            if appearance.hasNotes then summaryLines appearance surroundings.elapsed result else []
        errors := warningLines appearance context ++ unreadableLines appearance result
        status := result.status denyWarnings }

end ScriptLint.Command
