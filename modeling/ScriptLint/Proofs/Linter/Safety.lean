import ScriptLint.Proofs.Document.Access
import ScriptLint.Proofs.Linter.Isolation
import ScriptLint.Proofs.Rule.ArrayCopy
import ScriptLint.Proofs.Rule.Lines
import ScriptLint.Proofs.Rule.Matches
import ScriptLint.Proofs.Rule.Names
import ScriptLint.Proofs.Rule.NoEmptyFunctions
import ScriptLint.Proofs.Settings.Resolution

/-!
# Safety of the rules of the catalogue

Under options of the shape that it asks for, each rule of the catalogue gives issues that point into
the document. The table of options gives no other shape, so whatever the settings say, the linter
drops no result of a rule that is switched on.
-/

namespace ScriptLint

variable {document : Document} {settings : RuleSettings} {rule : Rule} {options : RuleOptions}

theorem Registry.succeeds_of_fits (member : rule ∈ catalogue) (fits : options.Fits rule.id) :
    rule.Succeeds document options := by
  simp only [catalogue, List.mem_cons, List.not_mem_nil, or_false] at member
  rcases member with rfl | rfl | rfl | rfl | rfl | rfl | rfl | rfl | rfl | rfl | rfl | rfl | rfl | rfl
  · obtain ⟨limit, rfl⟩ : ∃ limit, options = .threshold limit := fits
    exact MaxLineLength.succeeds document limit
  · obtain ⟨indentation, rfl, positive⟩ :
        ∃ indentation, options = .indent indentation ∧ 1 ≤ indentation.size := fits
    exact Indent.succeeds document positive
  · obtain ⟨style, rfl⟩ : ∃ style, options = .semicolons style := fits
    exact Semicolons.succeeds document style
  · obtain ⟨style, rfl⟩ : ∃ style, options = .quotes style := fits
    exact Quotes.succeeds document style
  · exact NoConsole.succeeds document options
  · exact NoVar.succeeds document options
  · exact NoAny.succeeds document options
  · exact NoEmptyFunctions.succeeds document options
  · exact NoTrailingWhitespace.succeeds document options
  · exact NamingConvention.succeeds document options
  · exact UeNamingConvention.succeeds document options
  · exact FunctionEmptyLine.succeeds document options
  · exact ArrayCopy.succeeds document options
  · exact TrailingComma.succeeds document options

theorem Registry.succeeds_of_resolve (member : rule ∈ catalogue)
    (resolved : settings.resolve rule.id = .enabled options) : rule.Succeeds document options :=
  succeeds_of_fits member (RuleSettings.fits_of_resolve resolved)

/-- The report of the linter joins what the rules of the catalogue add. -/
theorem lint_eq_joined_catalogue (document : Document) (settings : RuleSettings) :
    ({} : Linter).lint document settings =
      .joined (Registry.catalogue.map fun rule => (rule.run document settings).report) := by
  have unlimited : ∀ limit, ({} : Linter).sizeLimit = some limit → document.size ≤ limit :=
    nofun
  rw [Linter.lint_eq_joined unlimited]
  exact congrArg (fun rules : List Rule =>
    LintReport.joined (rules.map fun rule => (rule.run document settings).report))
    Registry.rules_builtin

theorem exists_adds_of_mem_events {event : LintEvent}
    (member : event ∈ (({} : Linter).lint document settings).events) :
    ∃ rule ∈ Registry.catalogue, ∃ addition, rule.Adds document settings addition ∧
      event ∈ addition.events := by
  rw [lint_eq_joined_catalogue] at member
  obtain ⟨addition, added, eventMember⟩ := List.mem_flatMap.mp member
  obtain ⟨rule, ruleMember, rfl⟩ := List.mem_map.mp added
  exact ⟨rule, ruleMember, _, rule.adds_report_run document settings, eventMember⟩

theorem exists_adds_of_mem_issues {issue : Issue}
    (member : issue ∈ (({} : Linter).lint document settings).issues) :
    ∃ rule ∈ Registry.catalogue, ∃ addition, rule.Adds document settings addition ∧
      issue ∈ addition.issues := by
  rw [lint_eq_joined_catalogue] at member
  obtain ⟨addition, added, issueMember⟩ := List.mem_flatMap.mp member
  obtain ⟨rule, ruleMember, rfl⟩ := List.mem_map.mp added
  exact ⟨rule, ruleMember, _, rule.adds_report_run document settings, issueMember⟩

/-- No rule of the catalogue fails or breaks off: the linter has nothing to say but that settings are
malformed, each rule that is switched on gets options that it accepts and gives issues, and no access
to the document is out of bounds. -/
theorem lint_never_fails (document : Document) (settings : RuleSettings) :
    (∀ event ∈ (({} : Linter).lint document settings).events,
      ∃ rule fault, event = .malformed rule fault) ∧
    (∀ rule ∈ Registry.catalogue, ∀ options, settings.resolve rule.id = .enabled options →
      options.Fits rule.id ∧ ∃ issues, rule.check document options = .ok issues) ∧
    document.StaysInBounds := by
  have checks : ∀ rule ∈ Registry.catalogue, ∀ options,
      settings.resolve rule.id = .enabled options →
        ∃ issues, rule.check document options = .ok issues := by
    intro rule member options resolved
    obtain ⟨issues, checked, _⟩ := Registry.succeeds_of_resolve member resolved
    exact ⟨issues, checked⟩
  refine ⟨?_, fun rule member options resolved =>
    ⟨RuleSettings.fits_of_resolve resolved, checks rule member options resolved⟩,
    document.staysInBounds⟩
  intro event member
  obtain ⟨rule, ruleMember, addition, adds, eventMember⟩ := exists_adds_of_mem_events member
  cases adds with
  | disabled => exact absurd eventMember List.not_mem_nil
  | @malformed fault => exact ⟨rule.id, fault, List.mem_singleton.mp eventMember⟩
  | passed => exact absurd eventMember List.not_mem_nil
  | refused resolved refused =>
      obtain ⟨issues, checked⟩ := checks rule ruleMember _ resolved
      cases checked.symm.trans refused
  | crashed resolved crashed =>
      obtain ⟨issues, checked⟩ := checks rule ruleMember _ resolved
      cases checked.symm.trans crashed

/-- Every issue of the linter stands on a line of the document and covers characters of that line,
except that a missing trailing comma, one character long, may stand at the end. -/
theorem lint_pointsInto (document : Document) (settings : RuleSettings) :
    ∀ issue ∈ (({} : Linter).lint document settings).issues, issue.PointsInto document := by
  intro issue member
  obtain ⟨rule, ruleMember, addition, adds, issueMember⟩ := exists_adds_of_mem_issues member
  cases adds with
  | passed resolved checked =>
      obtain ⟨issues, succeeded, points⟩ := Registry.succeeds_of_resolve ruleMember resolved
      rw [checked] at succeeded
      cases succeeded
      exact points issue issueMember
  | disabled | malformed | refused | crashed => exact absurd issueMember List.not_mem_nil

/-- A comma that is missing behind a string with a letter of two bytes. -/
theorem lint_pointsInto_missing_comma :
    TrailingComma.info.issue 1 6 1 "Object and enum members should end with a comma" ∈
      (({} : Linter).lint ⟨"(\x7b\na: 'ö'\nb\x7d)".toList⟩
        (.ofList [("trailingComma", .bool true)])).issues ∧
    (TrailingComma.info.issue 1 6 1 "Object and enum members should end with a comma").PointsInto
      ⟨"(\x7b\na: 'ö'\nb\x7d)".toList⟩ := by
  have reported : TrailingComma.info.issue 1 6 1
      "Object and enum members should end with a comma" ∈
        (({} : Linter).lint ⟨"(\x7b\na: 'ö'\nb\x7d)".toList⟩
          (.ofList [("trailingComma", .bool true)])).issues := by
    decide
  exact ⟨reported, lint_pointsInto _ _ _ reported⟩

end ScriptLint
