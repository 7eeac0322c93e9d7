import ScriptLint.Registry
import ScriptLint.Settings.Resolution

/-!
# The linter

A linter runs the rules of a registry on a document, each with the options that the settings give
it. The issues come in the order of the registry. A rule that is misconfigured, refuses or breaks
off contributes no issue and one event, and the others are not affected. A document beyond the size
limit is not checked at all.
-/

namespace ScriptLint

inductive LintEvent where
  | malformed (rule : String) (fault : SettingFault)
  | refused (rule : String) (error : RuleError)
  | crashed (rule : String) (message : Option String)
  | oversized (size limit : Nat)
  deriving Repr

/-- An event as named texts, the wording of the event first. -/
def LintEvent.fields : LintEvent → List (String × String)
  | malformed rule fault =>
      [("message", "invalid rule configuration, rule disabled"), ("rule", rule),
        ("reason", fault.message)]
  | refused rule error =>
      [("message", "rule failed, dropping its results"), ("rule", rule),
        ("error", error.message)]
  | crashed rule message =>
      [("message", "rule panicked, dropping its results"), ("rule", rule),
        ("message", message.getD "unknown panic")]
  | oversized size limit =>
      [("message", "document exceeds maximum input size, skipping"), ("size", toString size),
        ("limit", toString limit)]

/-- What running one rule gives. -/
inductive Verdict where
  | skipped
  | found (issues : List Issue)
  | dropped (event : LintEvent)
  deriving Repr

def Verdict.issues : Verdict → List Issue
  | found issues => issues
  | _ => []

def Verdict.event? : Verdict → Option LintEvent
  | dropped event => some event
  | _ => none

def Rule.run (rule : Rule) (document : Document) (settings : RuleSettings) : Verdict :=
  match settings.resolve rule.id with
  | .disabled => .skipped
  | .malformed fault => .dropped (.malformed rule.id fault)
  | .enabled options =>
      match rule.check document options with
      | .ok issues => .found issues
      | .error (.refused error) => .dropped (.refused rule.id error)
      | .error (.crashed message) => .dropped (.crashed rule.id message)

/-- The rules to run and the size, in bytes, beyond which a document is not checked. -/
structure Linter where
  registry : Registry := .builtin
  sizeLimit : Option Nat := none

structure LintReport where
  issues : List Issue
  events : List LintEvent
  deriving Repr

/-- Whether a document is beyond the size limit, and that limit. -/
def Linter.exceeded? (linter : Linter) (document : Document) : Option Nat :=
  linter.sizeLimit.filter fun limit => limit < document.size

def Linter.lint (linter : Linter) (document : Document) (settings : RuleSettings) : LintReport :=
  match linter.exceeded? document with
  | some limit => { issues := [], events := [.oversized document.size limit] }
  | none =>
      let verdicts := linter.registry.rules.map fun rule => rule.run document settings
      { issues := verdicts.flatMap Verdict.issues, events := verdicts.filterMap Verdict.event? }

end ScriptLint
