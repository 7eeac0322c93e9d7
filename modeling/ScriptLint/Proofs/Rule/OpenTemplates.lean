import ScriptLint.Proofs.Source.TemplateLines
import ScriptLint.Rule.TrailingComma

/-!
# Members that end in an open template literal

The rule for trailing commas looks at the delimiters open at the end of a line, at its last
character and at the next line of code, and none of them shows a template literal that is still
open. So the text of the template literal is taken for what follows the member: a line at whose end
a template literal is open is reported by what the next line of its text looks like.
-/

namespace ScriptLint

open Text

theorem PlacedLine.mem_ofLines {placed : PlacedLine} {start : Nat} {lines : List ScannedLine} :
    placed ∈ ofLines start lines ↔ ∃ offset, placed.index = start + offset ∧
      lines[offset]? = some placed.line ∧ placed.following = lines.drop (offset + 1) := by
  induction lines generalizing start with
  | nil => exact ⟨nofun, fun ⟨_, _, found, _⟩ => nomatch found⟩
  | cons line rest inductionHypothesis =>
      rw [ofLines, List.mem_cons, inductionHypothesis]
      constructor
      · rintro (rfl | ⟨offset, indexEq, found, followingEq⟩)
        · exact ⟨0, rfl, rfl, rfl⟩
        · exact ⟨offset + 1, by omega, found, followingEq⟩
      · rintro ⟨offset, indexEq, found, followingEq⟩
        cases offset with
        | zero =>
            cases placed
            cases found
            cases indexEq
            cases followingEq
            exact Or.inl rfl
        | succ offset => exact Or.inr ⟨offset, by omega, found, followingEq⟩

theorem Document.mem_placedLines {document : Document} {placed : PlacedLine} :
    placed ∈ document.placedLines ↔ document.scan[placed.index]? = some placed.line ∧
      placed.following = document.scan.drop (placed.index + 1) := by
  rw [placedLines, PlacedLine.mem_ofLines]
  simp only [Nat.zero_add, exists_eq_left']

namespace TrailingComma

variable {document : Document} {index : Nat} {line next : ScannedLine}

/-- The first of the lines that is not blank looks like another member: it begins neither with a
closing brace nor like a continuation. -/
def GoesOnAsMember (lines : List (List Char)) : Prop :=
  ∃ text, lines.find? (fun text => !isBlank text) = some text ∧
    beginsWith "\x7d" (trim text) = false ∧ startsWithContinuation (trim text) = false

theorem any_beginsWith_eq {text code : List Char} (keeps : KeepsToBacktick text code)
    {markers : List String} (noBacktick : ∀ marker ∈ markers, '`' ∉ marker.toList) :
    markers.any (beginsWith · code) = markers.any (beginsWith · text) := by
  induction markers with
  | nil => rfl
  | cons marker rest inductionHypothesis =>
      rw [List.forall_mem_cons] at noBacktick
      rw [List.any_cons, List.any_cons, inductionHypothesis noBacktick.2,
        keeps.beginsWith_eq noBacktick.1]

theorem startsWithContinuation_eq {text code : List Char} (keeps : KeepsToBacktick text code) :
    startsWithContinuation code = startsWithContinuation text := by
  rw [startsWithContinuation, any_beginsWith_eq keeps (by decide),
    any_beginsWith_eq keeps (by decide), startsWithContinuation]

/-- Below an open template literal the line that is taken for the next member is a line of its
text. -/
theorem isFollowedByMember_iff (foundNext : document.scan[index]? = some next)
    (inTemplate : next.startsInTemplate = true) :
    isFollowedByMember ((document.scan.drop index).find? ScannedLine.isCode) = true ↔
      GoesOnAsMember (document.lines.drop index) := by
  have heads : ∀ first ∈ (document.scan.drop index).head?, first.startsInTemplate = true := by
    intro first isFirst
    rw [List.head?_drop, foundNext] at isFirst
    cases isFirst
    exact inTemplate
  obtain ⟨sameText, keeps⟩ := Document.find?_isCode_of_startsInTemplate rfl heads
  rw [List.map_drop, Document.map_text_scan] at sameText
  rw [GoesOnAsMember, ← sameText]
  cases found : (document.scan.drop index).find? ScannedLine.isCode with
  | none =>
      constructor
      · nofun
      · rintro ⟨text, isText, _⟩
        cases isText
  | some code =>
      have trimmed := (keeps code found).trim
      have sameBrace : beginsWith "\x7d" code.trimmed = beginsWith "\x7d" (trim code.text) :=
        trimmed.beginsWith_eq (by decide)
      have sameContinuation : startsWithContinuation code.trimmed =
          startsWithContinuation (trim code.text) := startsWithContinuation_eq trimmed
      simp only [isFollowedByMember, sameBrace, sameContinuation, Bool.and_eq_true,
        Bool.not_eq_true', Option.map_some, Option.some.injEq, exists_eq_left']

theorem issueOfLine?_eq_some {placed : PlacedLine} (issue : Issue) :
    issueOfLine? placed = some issue ↔
      (placed.line.beginsCode = true ∧ placed.line.isDecorator = false ∧
        endsMember placed.line = true ∧ isFollowedByMember placed.nextCode? = true) ∧
      info.issue placed.index (placed.line.column (byteLength (trimEnd placed.line.code))) 1
        "Object and enum members should end with a comma" = issue := by
  simp only [issueOfLine?, Option.ite_none_right_eq_some, Option.some.injEq, Bool.and_eq_true,
    Bool.not_eq_true', and_assoc]

theorem exists_issue_iff (found : document.scan[index]? = some line) :
    (∃ issue ∈ issues document, issue.line = index) ↔
      line.beginsCode = true ∧ line.isDecorator = false ∧ endsMember line = true ∧
        isFollowedByMember ((document.scan.drop (index + 1)).find? ScannedLine.isCode) = true := by
  constructor
  · rintro ⟨issue, member, sameIndex⟩
    obtain ⟨placed, isPlaced, isIssue⟩ := List.mem_filterMap.mp member
    obtain ⟨ends, rfl⟩ := (issueOfLine?_eq_some issue).mp isIssue
    obtain ⟨foundPlaced, followingEq⟩ := Document.mem_placedLines.mp isPlaced
    have indexEq : placed.index = index := sameIndex
    rw [indexEq] at foundPlaced followingEq
    rw [found] at foundPlaced
    rw [PlacedLine.nextCode?, followingEq] at ends
    cases foundPlaced
    exact ends
  · intro ends
    let placed : PlacedLine := ⟨index, line, document.scan.drop (index + 1)⟩
    have isPlaced : placed ∈ document.placedLines := Document.mem_placedLines.mpr ⟨found, rfl⟩
    have isIssue := (@issueOfLine?_eq_some placed _).mpr ⟨ends, rfl⟩
    exact ⟨_, List.mem_filterMap.mpr ⟨_, isPlaced, isIssue⟩, rfl⟩

/-- A line at whose end a template literal is still open is reported exactly if it ends a member as
far as delimiters and its last character tell, and the template literal's own text below it looks
like another member. -/
theorem check_reportsOpenTemplate_iff (document : Document) (options : RuleOptions) :
    ∃ issues, rule.check document options = .ok issues ∧
      ∀ index line next, document.scan[index]? = some line →
        document.scan[index + 1]? = some next → next.startsInTemplate = true →
          ((∃ issue ∈ issues, issue.line = index) ↔
            line.beginsCode = true ∧ line.isDecorator = false ∧ endsMember line = true ∧
              GoesOnAsMember (document.lines.drop (index + 1))) := by
  refine ⟨_, rfl, ?_⟩
  intro index line next found foundNext inTemplate
  rw [exists_issue_iff found, isFollowedByMember_iff foundNext inTemplate]

/-- The value of the first member goes on below its line, and the line is reported. -/
theorem check_reportsOpenTemplate :
    let document : Document :=
      ⟨"const o = \x7b\n    a: `x\ny`,\n    b: 1\n\x7d;".toList⟩
    ∃ issues next, rule.check document .enabled = .ok issues ∧
      issues.map (fun issue => (issue.line, issue.character)) = [(1, 9)] ∧
      document.scan[2]? = some next ∧ next.startsInTemplate = true := by
  intro document
  exact ⟨_, _, rfl, by decide +kernel, rfl, by decide +kernel⟩

end TrailingComma

end ScriptLint
