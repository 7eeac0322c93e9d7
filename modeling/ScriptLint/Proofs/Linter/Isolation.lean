import ScriptLint.Linter
import ScriptLint.Proofs.Registry
import Mathlib.Data.List.Forall2

/-!
# Isolation of the rules

The relation `Rule.Adds` says what one rule may add to a report, with one case for each way in which
its run can end. A report is these additions joined in the order of the registry, whatever mixture
of outcomes they come from. So a rule without a result can be exchanged for any other one and no
other rule loses, gains or moves an issue.
-/

namespace ScriptLint

/-- What one rule adds to the report on a document. -/
inductive Rule.Adds (document : Document) (settings : RuleSettings) (rule : Rule) :
    LintReport → Prop where
  | disabled : settings.resolve rule.id = .disabled →
      Adds document settings rule ⟨[], []⟩
  | malformed {fault : SettingFault} : settings.resolve rule.id = .malformed fault →
      Adds document settings rule ⟨[], [.malformed rule.id fault]⟩
  | passed {options : RuleOptions} {issues : List Issue} :
      settings.resolve rule.id = .enabled options → rule.check document options = .ok issues →
      Adds document settings rule ⟨issues, []⟩
  | refused {options : RuleOptions} {error : RuleError} :
      settings.resolve rule.id = .enabled options →
      rule.check document options = .error (.refused error) →
      Adds document settings rule ⟨[], [.refused rule.id error]⟩
  | crashed {options : RuleOptions} {message : Option String} :
      settings.resolve rule.id = .enabled options →
      rule.check document options = .error (.crashed message) →
      Adds document settings rule ⟨[], [.crashed rule.id message]⟩

/-- A rule is switched on, and its check gives issues. -/
def Rule.Passes (document : Document) (settings : RuleSettings) (rule : Rule) : Prop :=
  ∃ options issues, settings.resolve rule.id = .enabled options ∧
    rule.check document options = .ok issues

/-- The additions of several rules in one report. -/
def LintReport.joined (additions : List LintReport) : LintReport where
  issues := additions.flatMap LintReport.issues
  events := additions.flatMap LintReport.events

/-- The report on a single verdict. -/
def Verdict.report (verdict : Verdict) : LintReport where
  issues := verdict.issues
  events := verdict.event?.toList

variable {document : Document} {settings : RuleSettings} {rule : Rule}

namespace Rule

theorem adds_report_run (document : Document) (settings : RuleSettings) (rule : Rule) :
    rule.Adds document settings (rule.run document settings).report := by
  unfold run
  cases resolved : settings.resolve rule.id with
  | disabled => exact .disabled resolved
  | malformed fault => exact .malformed resolved
  | enabled options =>
      cases checked : rule.check document options with
      | ok issues =>
          simp only [checked]
          exact .passed resolved checked
      | error failure =>
          cases failure with
          | refused error =>
              simp only [checked]
              exact .refused resolved checked
          | crashed message =>
              simp only [checked]
              exact .crashed resolved checked

/-- The circumstances decide what a rule adds. -/
theorem Adds.eq_report_run {addition : LintReport} (adds : rule.Adds document settings addition) :
    addition = (rule.run document settings).report := by
  cases adds with
  | disabled resolved =>
      simp only [run, resolved]
      rfl
  | malformed resolved =>
      simp only [run, resolved]
      rfl
  | passed resolved checked | refused resolved checked | crashed resolved checked =>
      simp only [run, resolved, checked]
      rfl

theorem eq_map_of_forall₂_adds {rules : List Rule} {additions : List LintReport}
    (adds : List.Forall₂ (fun rule => rule.Adds document settings) rules additions) :
    additions = rules.map fun rule => (rule.run document settings).report := by
  induction adds with
  | nil => rfl
  | cons addsFirst _ inductionHypothesis =>
      rw [List.map_cons, ← addsFirst.eq_report_run, ← inductionHypothesis]

/-- Without a result there are no issues. -/
theorem Adds.issues_eq_nil {addition : LintReport} (adds : rule.Adds document settings addition)
    (fails : ¬ rule.Passes document settings) : addition.issues = [] := by
  cases adds with
  | passed resolved checked => exact absurd ⟨_, _, resolved, checked⟩ fails
  | disabled | malformed | refused | crashed => rfl

end Rule

/-- Within the size limit a report joins what the rules add, in the order of the registry. -/
theorem Linter.lint_eq_joined {linter : Linter}
    (within : ∀ limit, linter.sizeLimit = some limit → document.size ≤ limit) :
    linter.lint document settings =
      .joined (linter.registry.rules.map fun rule => (rule.run document settings).report) := by
  have notExceeded : linter.exceeded? document = none := by
    rw [exceeded?, Option.filter_eq_none_iff]
    intro limit isLimit
    rw [decide_eq_true_eq, Nat.not_lt]
    exact within limit isLimit
  have eventsOf : ∀ rules : List Rule,
      (rules.map fun rule => rule.run document settings).filterMap Verdict.event? =
        (rules.map fun rule => (rule.run document settings).report).flatMap
          LintReport.events := by
    intro rules
    rw [List.filterMap_eq_flatMap_toList, List.flatMap_map, List.flatMap_map]
    rfl
  simp only [lint, notExceeded, LintReport.joined, eventsOf, List.flatMap_map]
  rfl

/-- Beyond the size limit a report says this and nothing else. -/
theorem Linter.lint_eq_oversized {linter : Linter} {limit : Nat}
    (isLimit : linter.sizeLimit = some limit) (beyond : limit < document.size) :
    linter.lint document settings =
      { issues := [], events := [.oversized document.size limit] } := by
  have exceeded : linter.exceeded? document = some limit := by
    rw [exceeded?, isLimit, Option.filter_some, if_pos (decide_eq_true beyond)]
  simp only [lint, exceeded]

/-- Rules without a result can be exchanged for one another. -/
theorem Linter.issues_lint_exchange {before after : List Rule} {failing other : Rule}
    (fails : ¬ failing.Passes document settings) (otherFails : ¬ other.Passes document settings)
    (sizeLimit : Option Nat) :
    (Linter.lint ⟨⟨before ++ other :: after⟩, sizeLimit⟩ document settings).issues =
      (Linter.lint ⟨⟨before ++ failing :: after⟩, sizeLimit⟩ document settings).issues := by
  by_cases within : ∀ limit, sizeLimit = some limit → document.size ≤ limit
  · have nothing : ∀ rule : Rule, ¬ rule.Passes document settings →
        (rule.run document settings).report.issues = [] := fun rule fails =>
      (rule.adds_report_run document settings).issues_eq_nil fails
    rw [lint_eq_joined within, lint_eq_joined within]
    simp only [LintReport.joined, List.flatMap_map, List.flatMap_append, List.flatMap_cons,
      nothing other otherFails, nothing failing fails, List.nil_append]
  · simp only [not_forall, Nat.not_le] at within
    obtain ⟨limit, isLimit, beyond⟩ := within
    rw [lint_eq_oversized isLimit beyond, lint_eq_oversized isLimit beyond]

/-- However the rules have been registered, a document beyond the size limit gives one event and no
issue, and any other document gives what the registered rules add, each of them what its own outcome
says. Exchanging a rule without a result for another one, in its place or under its identifier,
leaves all issues as they are. -/
theorem lint_isolates (rules : List Rule) (sizeLimit : Option Nat) (document : Document)
    (settings : RuleSettings) :
    let registry := ({} : Registry).registerAll rules
    let report := Linter.lint ⟨registry, sizeLimit⟩ document settings
    (∀ limit, sizeLimit = some limit → limit < document.size →
      report = { issues := [], events := [.oversized document.size limit] }) ∧
    ((∀ limit, sizeLimit = some limit → document.size ≤ limit) →
      (∃ additions,
        List.Forall₂ (fun rule => rule.Adds document settings) registry.rules additions) ∧
      ∀ additions,
        List.Forall₂ (fun rule => rule.Adds document settings) registry.rules additions →
          report = .joined additions) ∧
    (∀ before failing after other, registry.rules = before ++ failing :: after →
      ¬ failing.Passes document settings → ¬ other.Passes document settings →
        (Linter.lint ⟨⟨before ++ other :: after⟩, sizeLimit⟩ document settings).issues =
          report.issues) ∧
    (∀ failing ∈ registry.rules, ∀ other : Rule, other.id = failing.id →
      ¬ failing.Passes document settings → ¬ other.Passes document settings →
        (Linter.lint ⟨registry.register other, sizeLimit⟩ document settings).issues =
          report.issues) := by
  intro registry report
  have noIds : ({} : Registry).ids.Nodup := List.nodup_nil
  have distinct : registry.ids.Nodup := Registry.nodup_ids_registerAll noIds rules
  have exchange : ∀ before failing after other, registry.rules = before ++ failing :: after →
      ¬ failing.Passes document settings → ¬ other.Passes document settings →
        (Linter.lint ⟨⟨before ++ other :: after⟩, sizeLimit⟩ document settings).issues =
          report.issues := by
    intro before failing after other shape fails otherFails
    have registryEq : registry = ⟨before ++ failing :: after⟩ := by
      rw [← shape]
    rw [Linter.issues_lint_exchange fails otherFails, ← registryEq]
  refine ⟨fun limit isLimit beyond => Linter.lint_eq_oversized isLimit beyond,
    fun within => ⟨?_, fun additions adds => ?_⟩, exchange, ?_⟩
  · refine ⟨registry.rules.map fun rule => (rule.run document settings).report, ?_⟩
    rw [List.forall₂_map_right_iff, List.forall₂_same]
    exact fun rule _ => rule.adds_report_run document settings
  · rw [Rule.eq_map_of_forall₂_adds adds]
    exact Linter.lint_eq_joined within
  · intro failing member other sameId fails otherFails
    obtain ⟨before, after, shape⟩ := List.append_of_mem member
    have first : other.id ∉ before.map (·.id) := by
      rw [Registry.ids, shape, List.map_append, List.map_cons, ← sameId] at distinct
      intro earlier
      exact List.disjoint_of_nodup_append distinct earlier List.mem_cons_self
    have placed : registry.register other = ⟨before ++ other :: after⟩ := by
      rw [Registry.register, shape, Registry.place_append_cons first sameId.symm]
    rw [placed]
    exact exchange before failing after other shape fails otherFails

end ScriptLint
