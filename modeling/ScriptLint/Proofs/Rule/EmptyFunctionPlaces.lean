import ScriptLint.Proofs.Document.Joined
import ScriptLint.Proofs.Document.Terminators
import ScriptLint.Proofs.Outcome
import ScriptLint.Proofs.Rule.FunctionHeads
import ScriptLint.Proofs.Rule.NoEmptyFunctions

/-!
# Where empty functions are looked up

The rule searches the joined lines of a document and asks the scanned line of a match whether the
match begins in a comment or a template literal. Lines, joined lines and scanned lines share their
coordinates, so it asks the line on which the match begins, about the byte at which it begins.
-/

namespace ScriptLint

open Text

/-- The lines of a document, its joined lines and its scanned lines share their coordinates. -/
structure Document.SharesCoordinates (document : Document) : Prop where
  lineCount_eq : document.text ≠ [] →
    (lineStarts document.joined).length = document.lineCount
  line_isIn : ∀ index start, (lineStarts document.joined)[index]? = some start →
    (⟨start, start + byteLength (document.line index), document.line index⟩ : Span).IsIn
      document.joined
  /-- A byte that is no line feed is the byte of its line at its column. -/
  byte_eq : ∀ offset byte, (utf8 document.joined)[offset]? = some byte → byte ≠ 0x0A →
    let place := lineColumn (lineStarts document.joined) offset
    place.1 < document.lineCount ∧ (utf8 (document.line place.1))[place.2]? = some byte
  end_eq : lineColumn (lineStarts document.joined) (byteLength document.joined) =
    (document.lineCount - 1, byteLength (document.line (document.lineCount - 1)))
  /-- A match begins in the scanned line of its coordinates, at the byte about which the line is
  asked. -/
  match_isIn : ∀ found ∈ NoEmptyFunctions.emptyFunction.searchAll document.joined,
    let place := lineColumn (lineStarts document.joined) found.whole.start
    let first := found.whole.letters.takeWhile (· != '\n')
    ∃ line, document.scan[place.1]? = some line ∧ line.text = document.line place.1 ∧
      first ≠ [] ∧ (⟨place.2, place.2 + byteLength first, first⟩ : Span).IsIn line.text ∧
      (NoEmptyFunctions.issueOfMatch? (lineStarts document.joined) document.scan.toArray found =
          .ok none ↔
        NoEmptyFunctions.isExempt found = true ∨ line.isInComment place.2 = true ∨
          line.isInTemplate place.2 = true)

namespace NoEmptyFunctions

variable {document : Document} {found : Match} {line : ScannedLine}

/-- A match is passed over for nothing but what it says itself and what its line says of its
start. -/
theorem issueOfMatch?_eq_none_iff
    (isMatch : Pattern.IsMatch emptyFunction document.joined found)
    (lineFound : document.scan[(lineColumn (lineStarts document.joined) found.whole.start).1]? =
      some line) :
    issueOfMatch? (lineStarts document.joined) document.scan.toArray found = .ok none ↔
      isExempt found = true ∨
        line.isInComment (lineColumn (lineStarts document.joined) found.whole.start).2 = true ∨
        line.isInTemplate (lineColumn (lineStarts document.joined) found.whole.start).2 = true := by
  obtain ⟨outcome, outcomeEq, _⟩ := yields_issueOfMatch? isMatch
  simp only [issueOfMatch?, List.getElem?_toArray, lineFound] at outcomeEq ⊢
  split at outcomeEq
  · next passedOver =>
      rw [if_pos passedOver]
      simpa [or_assoc] using passedOver
  · next isReported =>
      -- What is reported is an issue, so the outcome is not `none` either.
      rw [if_neg isReported, outcomeEq]
      obtain ⟨_, _, ⟨⟩⟩ := exists_of_bind_eq_ok outcomeEq
      simpa [or_assoc] using isReported

end NoEmptyFunctions

/-- In every document, whatever ends its lines, the coordinates of the joined lines are those of the
lines and of the scanned lines. -/
theorem Document.sharesCoordinates (document : Document) : document.SharesCoordinates where
  lineCount_eq someText := length_lineStarts_joined (lines_ne_nil someText)
  line_isIn _ _ := line_isIn_joined
  byte_eq _ _ := getElem?_utf8_line
  end_eq := lineColumn_byteLength_joined document
  match_isIn found member := by
    have isMatch := Pattern.isMatch_of_mem_searchAll member
    obtain ⟨letter, rest, lettersEq, isName⟩ :=
      isMatch.whole_opens NoEmptyFunctions.emptyFunction_opens
    have noFeed : letter ≠ '\n' := by
      intro same
      rw [same] at isName
      exact absurd isName (by decide)
    obtain ⟨line, lineFound, textEq, someFirst, inLine⟩ :=
      exists_scan_of_isIn_joined isMatch.whole_isIn ⟨letter, rest, lettersEq, noFeed⟩
    exact ⟨line, lineFound, textEq, someFirst, inLine,
      NoEmptyFunctions.issueOfMatch?_eq_none_iff isMatch lineFound⟩

end ScriptLint
