import ScriptLint.Source.Scanner
import ScriptLint.Proofs.Text.Blanking
import ScriptLint.Proofs.Text.Trim

/-!
# Regions and code of a line

While a line is read, the regions found so far are cut at character boundaries, they follow each
other without overlap, and the code is the text read so far with the characters of comments blanked.
The steps keep this as long as a region is open exactly while the characters read belong to one:
`Within.region?` says which region that is, and a character whose meaning is suspended never belongs
to a comment.

The main statement carries this over to whole lines: each line that the scanner returns is exact to
the byte, whatever lines were scanned before it.
-/

namespace ScriptLint

open Text

/-- The kind of region that covers what is read. -/
def Within.region? : Within → Option RegionKind
  | .lineComment | .blockOpening | .blockComment | .blockClosing => some .comment
  | .template _ => some .template
  | .held after => after.region?
  | _ => none

/-- Regions of a text, the last one first: they begin and end between characters, and none begins
before the one in front of it has ended. -/
structure AreLaid (letters : List Char) (regions : List Region) : Prop where
  bounded : ∀ region ∈ regions,
    IsBoundary letters region.start ∧ IsBoundary letters region.stop ∧ region.start ≤ region.stop
  apart : regions.Pairwise fun later earlier => earlier.stop ≤ later.start

namespace Progress

variable {read : List Char} {progress : Progress}

/-- The regions of the characters read so far, the last one first. One that has begun extends to the
position. -/
def covered (progress : Progress) : List Region := progress.closeRegion.closed

/-- Whether a byte position lies in a comment among these regions. -/
def hides (progress : Progress) (position : Nat) : Bool :=
  progress.covered.any fun region => region.kind == .comment && region.holds position

theorem covered_of_opened_eq_none (opened : progress.opened = none) :
    progress.covered = progress.closed := by
  rw [covered, closeRegion, opened]

theorem covered_of_opened_eq_some {kind : RegionKind} {start : Nat}
    (opened : progress.opened = some (kind, start)) :
    progress.covered = ⟨kind, start, progress.position⟩ :: progress.closed := by
  rw [covered, closeRegion, opened]

theorem covered_congr {other : Progress} (opened : other.opened = progress.opened)
    (position : other.position = progress.position) (closed : other.closed = progress.closed) :
    other.covered = progress.covered := by
  cases isOpened : progress.opened with
  | none =>
      rw [covered_of_opened_eq_none isOpened,
        covered_of_opened_eq_none (opened.trans isOpened), closed]
  | some region =>
      rw [covered_of_opened_eq_some isOpened,
        covered_of_opened_eq_some (opened.trans isOpened), closed, position]

theorem opened_closeRegion : progress.closeRegion.opened = none := by
  unfold closeRegion
  split
  · rfl
  · assumption

/-- The code and the regions of the characters read so far. -/
structure IsLaid (read : List Char) (progress : Progress) : Prop where
  position_eq : progress.position = byteLength read
  regions : AreLaid read progress.covered
  code_eq : progress.code = blankWhere progress.hides 0 read

namespace IsLaid

/-- What the scanner remembers beside the code and the regions does not matter. -/
theorem congr {other : Progress} (laid : IsLaid read progress)
    (reversed : other.reversed = progress.reversed)
    (position : other.position = progress.position)
    (opened : other.opened = progress.opened) (closed : other.closed = progress.closed) :
    IsLaid read other := by
  have sameCovered : other.covered = progress.covered := covered_congr opened position closed
  have sameHides : other.hides = progress.hides := by
    funext place
    rw [hides, hides, sameCovered]
  refine ⟨position.trans laid.position_eq, sameCovered ▸ laid.regions, ?_⟩
  rw [code, reversed, sameHides]
  exact laid.code_eq

theorem goOn (laid : IsLaid read progress) (within : Within) :
    IsLaid read (progress.goOn within) :=
  laid.congr rfl rfl rfl rfl

theorem remember (laid : IsLaid read progress) (last : Token) :
    IsLaid read (progress.remember last) :=
  laid.congr rfl rfl rfl rfl

theorem push (laid : IsLaid read progress) (frame : Frame) : IsLaid read (progress.push frame) :=
  laid.congr rfl rfl rfl rfl

theorem pop (laid : IsLaid read progress) : IsLaid read progress.pop :=
  laid.congr rfl rfl rfl rfl

/-- No region reaches beyond what has been read. -/
theorem hides_eq_false (laid : IsLaid read progress) {place : Nat}
    (beyond : byteLength read ≤ place) : progress.hides place = false := by
  rw [hides, List.any_eq_false]
  intro region member holds
  have stopInside : region.stop ≤ byteLength read :=
    (laid.regions.bounded region member).2.1.le_byteLength
  simp only [Region.holds, Bool.and_eq_true, decide_eq_true_eq] at holds
  omega

/-- Passing a character extends the open region and leaves the other ones alone. -/
theorem regions_advance (laid : IsLaid read progress) (letter : Char) {next : Progress}
    (position : next.position = progress.position + letter.utf8Size)
    (opened : next.opened = progress.opened) (closed : next.closed = progress.closed) :
    AreLaid (read ++ [letter]) next.covered := by
  have measured : next.position = byteLength (read ++ [letter]) := by
    rw [position, laid.position_eq, byteLength_append, byteLength_cons, byteLength_nil]
    omega
  cases isOpened : progress.opened with
  | none =>
      rw [covered_of_opened_eq_none (opened.trans isOpened), closed]
      have regions := laid.regions
      rw [covered_of_opened_eq_none isOpened] at regions
      refine ⟨fun region member => ?_, regions.apart⟩
      obtain ⟨startBoundary, stopBoundary, ordered⟩ := regions.bounded region member
      exact ⟨startBoundary.append _, stopBoundary.append _, ordered⟩
  | some region =>
      obtain ⟨kind, start⟩ := region
      rw [covered_of_opened_eq_some (opened.trans isOpened), closed]
      have regions := laid.regions
      rw [covered_of_opened_eq_some isOpened] at regions
      have apart := List.pairwise_cons.mp regions.apart
      refine ⟨fun region member => ?_, List.pairwise_cons.mpr apart⟩
      rcases List.mem_cons.mp member with same | earlier
      · have startBoundary := (regions.bounded _ List.mem_cons_self).1
        have startInside := startBoundary.le_byteLength
        subst same
        refine ⟨startBoundary.append _, measured ▸ IsBoundary.byteLength _, ?_⟩
        simp only [position, laid.position_eq]
        simp only at startInside
        omega
      · obtain ⟨startBoundary, stopBoundary, ordered⟩ :=
          regions.bounded region (List.mem_cons_of_mem _ earlier)
        exact ⟨startBoundary.append _, stopBoundary.append _, ordered⟩

theorem keep (laid : IsLaid read progress)
    (outside : progress.opened.map Prod.fst ≠ some .comment) (letter : Char) :
    IsLaid (read ++ [letter]) (progress.keep letter) := by
  have sameHides : (progress.keep letter).hides = progress.hides := by
    funext place
    cases isOpened : progress.opened with
    | none =>
        rw [hides, hides, covered_of_opened_eq_none isOpened,
          covered_of_opened_eq_none (show (progress.keep letter).opened = none from isOpened)]
        rfl
    | some region =>
        obtain ⟨kind, start⟩ := region
        have isTemplate : (kind == RegionKind.comment) = false := by
          rw [isOpened] at outside
          cases kind with
          | comment => exact absurd rfl outside
          | template => rfl
        rw [hides, hides, covered_of_opened_eq_some isOpened,
          covered_of_opened_eq_some
            (show (progress.keep letter).opened = some (kind, start) from isOpened),
          List.any_cons, List.any_cons, isTemplate, Bool.false_and, Bool.false_and]
        rfl
  refine ⟨?_, laid.regions_advance letter rfl rfl rfl, ?_⟩
  · simp [Progress.keep, laid.position_eq]
  · have visible : progress.hides (0 + byteLength read) = false :=
      laid.hides_eq_false (by omega)
    have codeEq : (progress.keep letter).code = progress.code ++ [letter] := by
      simp [code, Progress.keep]
    rw [codeEq, laid.code_eq, sameHides, blankWhere_append, blankWhere, visible]
    rfl

theorem hide (laid : IsLaid read progress) {start : Nat}
    (inside : progress.opened = some (.comment, start)) (letter : Char) :
    IsLaid (read ++ [letter]) (progress.hide letter) := by
  have sizePositive := letter.utf8Size_pos
  have startInside : start ≤ byteLength read := by
    have regions := laid.regions
    rw [covered_of_opened_eq_some inside] at regions
    exact (regions.bounded _ List.mem_cons_self).1.le_byteLength
  have coveredEq :
      (progress.hide letter).covered =
        ⟨.comment, start, progress.position + letter.utf8Size⟩ :: progress.closed :=
    covered_of_opened_eq_some inside
  have sameBefore : ∀ place, 0 ≤ place → place < 0 + byteLength read →
      progress.hides place = (progress.hide letter).hides place := by
    intro place _ below
    have bothBelow : place < progress.position ∧ place < progress.position + letter.utf8Size := by
      rw [laid.position_eq]
      omega
    rw [hides, hides, covered_of_opened_eq_some inside, coveredEq, List.any_cons, List.any_cons]
    simp only [Region.holds, bothBelow.1, bothBelow.2]
  have hiddenHere : (progress.hide letter).hides (0 + byteLength read) = true := by
    rw [hides, coveredEq, List.any_cons]
    have holds :
        (⟨.comment, start, progress.position + letter.utf8Size⟩ : Region).holds
          (0 + byteLength read) = true := by
      simp only [Region.holds, laid.position_eq, Bool.and_eq_true, decide_eq_true_eq]
      omega
    rw [holds]
    rfl
  refine ⟨?_, laid.regions_advance letter rfl rfl rfl, ?_⟩
  · simp [Progress.hide, laid.position_eq]
  · have codeEq :
        (progress.hide letter).code = progress.code ++ List.replicate letter.utf8Size ' ' := by
      simp [code, Progress.hide]
    rw [codeEq, laid.code_eq, blankWhere_append, blankWhere_congr sameBefore, blankWhere,
      hiddenHere, if_pos rfl, blankWhere, List.append_nil]

theorem openRegion (laid : IsLaid read progress) (closed : progress.opened = none)
    (kind : RegionKind) : IsLaid read (progress.openRegion kind) := by
  have coveredEq :
      (progress.openRegion kind).covered =
        ⟨kind, progress.position, progress.position⟩ :: progress.closed :=
    covered_of_opened_eq_some rfl
  have regions := laid.regions
  rw [covered_of_opened_eq_none closed] at regions
  have sameHides : (progress.openRegion kind).hides = progress.hides := by
    funext place
    have empty : (⟨kind, progress.position, progress.position⟩ : Region).holds place = false := by
      simp only [Region.holds, Bool.and_eq_false_iff, decide_eq_false_iff_not]
      omega
    rw [hides, hides, coveredEq, covered_of_opened_eq_none closed, List.any_cons, empty,
      Bool.and_false, Bool.false_or]
  refine ⟨laid.position_eq, ⟨fun region member => ?_, ?_⟩, ?_⟩
  · rw [coveredEq] at member
    rcases List.mem_cons.mp member with same | earlier
    · subst same
      have atEnd : IsBoundary read progress.position :=
        laid.position_eq ▸ IsBoundary.byteLength read
      exact ⟨atEnd, atEnd, Nat.le_refl _⟩
    · exact regions.bounded region earlier
  · rw [coveredEq, List.pairwise_cons]
    refine ⟨fun region earlier => ?_, regions.apart⟩
    have stopInside := (regions.bounded region earlier).2.1.le_byteLength
    simp only [laid.position_eq]
    exact stopInside
  · rw [sameHides]
    exact laid.code_eq

theorem closeRegion (laid : IsLaid read progress) : IsLaid read progress.closeRegion := by
  have sameCovered : progress.closeRegion.covered = progress.covered :=
    covered_of_opened_eq_none opened_closeRegion
  have sameHides : progress.closeRegion.hides = progress.hides := by
    funext place
    rw [hides, hides, sameCovered]
  have samePosition : progress.closeRegion.position = progress.position := by
    unfold Progress.closeRegion
    split <;> rfl
  have sameCode : progress.closeRegion.code = progress.code := by
    unfold Progress.closeRegion
    split <;> rfl
  refine ⟨samePosition.trans laid.position_eq, sameCovered ▸ laid.regions, ?_⟩
  rw [sameCode, sameHides]
  exact laid.code_eq

end IsLaid

/-! ## Steps -/

/-- The code and the regions are those of the characters read so far, and a region is open exactly
while characters of its kind are read. -/
structure Tracks (read : List Char) (progress : Progress) : Prop where
  laid : IsLaid read progress
  region_eq : progress.opened.map Prod.fst = progress.within.region?
  held_ne : ∀ after, progress.within = .held after → after.region? ≠ some .comment

namespace Tracks

/-- Both branches of a decision are in step, so its result is. -/
theorem ite {condition : Prop} [Decidable condition] {first second : Progress}
    (whenTrue : Tracks read first) (whenFalse : Tracks read second) :
    Tracks read (if condition then first else second) := by
  by_cases decided : condition
  · rw [if_pos decided]
    exact whenTrue
  · rw [if_neg decided]
    exact whenFalse

/-- What is read next begins in code that is laid out and covered by nothing. -/
theorem readCode (laid : IsLaid read progress) (closed : progress.opened = none)
    (context : LineContext) (letter : Char) (next : Option Char) :
    Tracks (read ++ [letter]) (progress.readCode context letter next) := by
  have outside : progress.opened.map Prod.fst ≠ some .comment := by
    rw [closed]
    nofun
  have kept := laid.keep outside letter
  have openedNone : progress.opened.map Prod.fst = none := by
    rw [closed]
    rfl
  unfold Progress.readCode
  refine .ite ?_ ?_
  · have hidden := (laid.openRegion closed .comment).hide rfl letter
    exact ⟨hidden.goOn _, rfl, nofun⟩
  refine .ite ?_ ?_
  · have hidden := (laid.openRegion closed .comment).hide rfl letter
    exact ⟨hidden.goOn _, rfl, nofun⟩
  refine .ite ?_ ?_
  · exact ⟨(kept.remember _).goOn _, openedNone, nofun⟩
  refine .ite ?_ ?_
  · exact ⟨(kept.remember _).goOn _, openedNone, nofun⟩
  refine .ite ?_ ?_
  · -- a template literal covers its own backtick
    have covered := (laid.openRegion closed .template).keep (by nofun) letter
    exact ⟨covered.goOn _, rfl, nofun⟩
  refine .ite ?_ ?_
  · exact ⟨(((laid.push _).keep outside letter).remember _).goOn _, openedNone, nofun⟩
  refine .ite ?_ ?_
  · exact ⟨(((laid.push _).keep outside letter).remember _).goOn _, openedNone, nofun⟩
  refine .ite ?_ ?_
  · exact ⟨(((laid.push _).keep outside letter).remember _).goOn _, openedNone, nofun⟩
  refine .ite ?_ ?_
  · exact ⟨((laid.pop.keep outside letter).remember _).goOn _, openedNone, nofun⟩
  refine .ite ?_ ?_
  · exact ⟨(kept.remember _).goOn _, openedNone, nofun⟩
  refine .ite ?_ ?_
  · exact ⟨kept.goOn _, openedNone, nofun⟩
  · exact ⟨(kept.remember _).goOn _, openedNone, nofun⟩

theorem readString (tracked : Tracks read progress) {quote : Char}
    (within : progress.within = .string quote) (letter : Char) :
    Tracks (read ++ [letter]) (progress.readString quote letter) := by
  have openedNone : progress.opened.map Prod.fst = none := by
    rw [tracked.region_eq, within]
    rfl
  have kept := tracked.laid.keep (by rw [openedNone]; nofun) letter
  unfold Progress.readString
  refine .ite ?_ ?_
  · refine ⟨kept.goOn _, openedNone, ?_⟩
    rintro _ ⟨⟩
    nofun
  refine .ite ?_ ?_
  · exact ⟨kept.goOn _, openedNone, nofun⟩
  · exact ⟨kept, tracked.region_eq, tracked.held_ne⟩

theorem readRegex (tracked : Tracks read progress) {inClass : Bool}
    (within : progress.within = .regex inClass) (letter : Char) :
    Tracks (read ++ [letter]) (progress.readRegex inClass letter) := by
  have openedNone : progress.opened.map Prod.fst = none := by
    rw [tracked.region_eq, within]
    rfl
  have kept := tracked.laid.keep (by rw [openedNone]; nofun) letter
  unfold Progress.readRegex
  refine .ite ?_ ?_
  · refine ⟨kept.goOn _, openedNone, ?_⟩
    rintro _ ⟨⟩
    nofun
  refine .ite ?_ ?_
  · exact ⟨kept.goOn _, openedNone, nofun⟩
  refine .ite ?_ ?_
  · exact ⟨kept.goOn _, openedNone, nofun⟩
  refine .ite ?_ ?_
  · exact ⟨kept.goOn _, openedNone, nofun⟩
  · exact ⟨kept, tracked.region_eq, tracked.held_ne⟩

theorem readTemplate (tracked : Tracks read progress) {depth : Nat}
    (within : progress.within = .template depth) (letter : Char) (next : Option Char) :
    Tracks (read ++ [letter]) (progress.readTemplate depth letter next) := by
  have openedTemplate : progress.opened.map Prod.fst = some .template := by
    rw [tracked.region_eq, within]
    rfl
  have kept := tracked.laid.keep (by rw [openedTemplate]; nofun) letter
  unfold Progress.readTemplate
  refine .ite ?_ ?_
  · refine ⟨kept.goOn _, openedTemplate, ?_⟩
    rintro _ ⟨⟩
    nofun
  refine .ite ?_ ?_
  · refine ⟨kept.goOn _, openedTemplate, ?_⟩
    rintro _ ⟨⟩
    nofun
  refine .ite ?_ ?_
  · exact ⟨kept.goOn _, openedTemplate, nofun⟩
  refine .ite ?_ ?_
  · exact ⟨kept.goOn _, openedTemplate, nofun⟩
  refine .ite ?_ ?_
  · -- the closing backtick is the last character of the region
    refine ⟨(kept.closeRegion.remember _).goOn _, ?_, nofun⟩
    exact congrArg (Option.map Prod.fst) opened_closeRegion
  · exact ⟨kept, tracked.region_eq, tracked.held_ne⟩

/-- One character keeps code and regions in step with what has been read. -/
theorem step (tracked : Tracks read progress) (context : LineContext) (letter : Char)
    (next : Option Char) : Tracks (read ++ [letter]) (progress.read context letter next) := by
  have region := tracked.region_eq
  have closedIn : progress.within.region? = none → progress.opened = none := by
    intro uncovered
    rw [uncovered, Option.map_eq_none_iff] at region
    exact region
  have hiddenIn : progress.within.region? = some .comment →
      IsLaid (read ++ [letter]) (progress.hide letter) := by
    intro covered
    rw [covered, Option.map_eq_some_iff] at region
    obtain ⟨⟨kind, start⟩, opened, sameKind⟩ := region
    simp only at sameKind
    subst sameKind
    exact tracked.laid.hide opened letter
  unfold Progress.read
  cases within : progress.within with
  | plain => exact readCode tracked.laid (closedIn (by rw [within]; rfl)) context letter next
  | word => exact readCode tracked.laid (closedIn (by rw [within]; rfl)) context letter next
  | string quote => exact tracked.readString within letter
  | regex inClass => exact tracked.readRegex within letter
  | flags =>
      have closed := closedIn (by rw [within]; rfl)
      refine .ite ?_ ?_
      · have kept := tracked.laid.keep (by rw [closed]; nofun) letter
        exact ⟨kept, tracked.region_eq, tracked.held_ne⟩
      -- the first character behind the flags is read as code, in the same step
      · exact readCode (tracked.laid.goOn .plain) closed context letter next
  | lineComment =>
      exact ⟨hiddenIn (by rw [within]; rfl), tracked.region_eq, tracked.held_ne⟩
  | blockOpening =>
      refine ⟨(hiddenIn (by rw [within]; rfl)).goOn _, ?_, nofun⟩
      exact tracked.region_eq.trans (by rw [within]; rfl)
  | blockComment =>
      have hidden := hiddenIn (by rw [within]; rfl)
      refine .ite ?_ ?_
      · refine ⟨hidden.goOn _, ?_, nofun⟩
        exact tracked.region_eq.trans (by rw [within]; rfl)
      · exact ⟨hidden, tracked.region_eq, tracked.held_ne⟩
  | blockClosing =>
      refine ⟨(hiddenIn (by rw [within]; rfl)).closeRegion.goOn _, ?_, nofun⟩
      exact congrArg (Option.map Prod.fst) opened_closeRegion
  | template depth => exact tracked.readTemplate within letter next
  | held after =>
      -- the second character of a pair is always kept, so the pair must not lie in a comment
      have notComment := tracked.held_ne after within
      have sameRegion : progress.opened.map Prod.fst = after.region? :=
        tracked.region_eq.trans (by rw [within]; rfl)
      have kept := tracked.laid.keep (sameRegion ▸ notComment) letter
      refine ⟨kept.goOn _, sameRegion, ?_⟩
      rintro inner ⟨⟩
      exact notComment

/-- Reading the rest of a line keeps code and regions in step with what has been read. -/
theorem readAll (tracked : Tracks read progress) (context : LineContext) (letters : List Char) :
    Tracks (read ++ letters) (progress.readAll context letters) := by
  induction letters generalizing read progress with
  | nil =>
      rw [List.append_nil]
      exact tracked
  | cons letter rest inductionHypothesis =>
      have next := inductionHypothesis (tracked.step context letter rest.head?)
      rw [List.append_assoc] at next
      exact next

end Tracks

end Progress

/-! ## Lines -/

/-- A line begins with its regions and its code in step with nothing read. -/
theorem Scanner.tracks_begin (scanner : Scanner) : Progress.Tracks [] scanner.begin := by
  have atStart : ∀ kind, AreLaid [] [(⟨kind, 0, 0⟩ : Region)] := by
    intro kind
    refine ⟨fun region member => ?_, List.pairwise_singleton _ _⟩
    rw [List.mem_singleton] at member
    subst member
    exact ⟨.zero [], .zero [], Nat.le_refl 0⟩
  cases mode : scanner.mode with
  | code =>
      refine ⟨⟨rfl, ?_, rfl⟩, ?_, ?_⟩
      · rw [Progress.covered_of_opened_eq_none (by simp [begin, mode, Mode.opened])]
        exact ⟨nofun, List.Pairwise.nil⟩
      · simp [begin, mode, Mode.opened, Mode.enter, Within.region?]
      · simp [begin, mode, Mode.enter]
  | blockComment =>
      refine ⟨⟨rfl, ?_, rfl⟩, ?_, ?_⟩
      · rw [Progress.covered_of_opened_eq_some
          (show scanner.begin.opened = some (.comment, 0) by simp [begin, mode, Mode.opened])]
        exact atStart .comment
      · simp [begin, mode, Mode.opened, Mode.enter, Within.region?]
      · simp [begin, mode, Mode.enter]
  | template depth =>
      refine ⟨⟨rfl, ?_, rfl⟩, ?_, ?_⟩
      · rw [Progress.covered_of_opened_eq_some
          (show scanner.begin.opened = some (.template, 0) by simp [begin, mode, Mode.opened])]
        exact atStart .template
      · simp [begin, mode, Mode.opened, Mode.enter, Within.region?]
      · simp [begin, mode, Mode.enter]

theorem Scanner.tracks_progressOver (scanner : Scanner) (index : Nat) (text : List Char) :
    Progress.Tracks text (scanner.progressOver index text) :=
  scanner.tracks_begin.readAll ⟨index, scanner.previous⟩ text

theorem AreLaid.reverse_apart {letters : List Char} {regions : List Region}
    (laid : AreLaid letters regions) :
    regions.reverse.Pairwise fun first second => first.stop ≤ second.start := by
  rw [List.pairwise_reverse]
  exact laid.apart

/-- A region of a text holds the bytes of a character all together or not at all. -/
theorem AreLaid.holds_eq {before after : List Char} {letter : Char} {regions : List Region}
    (laid : AreLaid (before ++ letter :: after) regions) {region : Region}
    (member : region ∈ regions) {offset : Nat} (inside : offset < letter.utf8Size) :
    region.holds (byteLength before + offset) = region.holds (byteLength before) := by
  obtain ⟨startBoundary, stopBoundary, _⟩ := laid.bounded region member
  have startApart := startBoundary.le_or_add_le
  have stopApart := stopBoundary.le_or_add_le
  rw [Bool.eq_iff_iff]
  simp only [Region.holds, Bool.and_eq_true, decide_eq_true_eq]
  omega

namespace ScannedLine

/-- The regions of a line are ordered character ranges of it, comments hold spaces in the code, and
every other byte of the code is that of the line. -/
structure IsByteExact (line : ScannedLine) : Prop where
  length_eq : (utf8 line.code).length = (utf8 line.text).length
  region_inside : ∀ region ∈ line.regions,
    region.start ≤ region.stop ∧ region.stop ≤ (utf8 line.text).length ∧
      IsBoundary line.text region.start ∧ IsBoundary line.text region.stop
  regions_apart : line.regions.Pairwise fun first second => first.stop ≤ second.start
  byte_eq : ∀ position < (utf8 line.text).length,
    (utf8 line.code)[position]? =
      if line.isInComment position then some 0x20 else (utf8 line.text)[position]?
  isComment_iff : line.isComment = true ↔
    line.isBlank = false ∧
      ∀ before letter after, line.text = before ++ letter :: after →
        line.isInComment (byteLength before) = false → isSpace letter

/-- A line is exact if its regions are laid out on its text and its code is the text without its
comments. -/
theorem isByteExact_of_laid {line : ScannedLine}
    (laid : AreLaid line.text line.regions.reverse)
    (codeEq : line.code = blankWhere line.isInComment 0 line.text) : line.IsByteExact where
  length_eq := by
    rw [length_utf8, length_utf8, codeEq, byteLength_blankWhere]
  region_inside region member := by
    obtain ⟨startBoundary, stopBoundary, ordered⟩ :=
      laid.bounded region (List.mem_reverse.mpr member)
    refine ⟨ordered, ?_, startBoundary, stopBoundary⟩
    rw [length_utf8]
    exact stopBoundary.le_byteLength
  regions_apart := by
    have apart := laid.reverse_apart
    rwa [List.reverse_reverse] at apart
  byte_eq position inside := by
    rw [length_utf8] at inside
    have whole : ∀ before letter after, line.text = before ++ letter :: after →
        ∀ offset < letter.utf8Size,
          line.isInComment (0 + byteLength before + offset) =
            line.isInComment (0 + byteLength before) := by
      intro before letter after textEq offset small
      rw [textEq] at laid
      rw [Nat.zero_add, isInComment, isInComment, isIn, isIn, Bool.eq_iff_iff, List.any_eq_true,
        List.any_eq_true]
      refine exists_congr fun region => and_congr_right fun member => ?_
      rw [laid.holds_eq (List.mem_reverse.mpr member) small]
    rw [codeEq, getElem?_utf8_blankWhere whole inside, Nat.zero_add]
  isComment_iff := by
    have codeBlank : line.trimmed = [] ↔
        ∀ before letter after, line.text = before ++ letter :: after →
          line.isInComment (byteLength before) = false → isSpace letter := by
      rw [trimmed, trim_eq_nil_iff, codeEq, forall_isSpace_blankWhere]
      simp only [Nat.zero_add]
    rw [isComment, Bool.and_eq_true, Bool.not_eq_true', List.isEmpty_iff, codeBlank]

end ScannedLine

namespace Scanner

variable (scanner : Scanner) (index : Nat) (text : List Char)

theorem laid_scanLine : AreLaid text (scanner.scanLine index text).1.regions.reverse := by
  have laid := (scanner.tracks_progressOver index text).laid.regions
  rw [show (scanner.scanLine index text).1.regions.reverse =
    (scanner.progressOver index text).covered from List.reverse_reverse _]
  exact laid

theorem code_scanLine :
    (scanner.scanLine index text).1.code =
      blankWhere (scanner.scanLine index text).1.isInComment 0 text := by
  have sameHides : (scanner.scanLine index text).1.isInComment =
      (scanner.progressOver index text).hides := by
    funext place
    exact List.any_reverse
  rw [sameHides]
  exact (scanner.tracks_progressOver index text).laid.code_eq

end Scanner

/-- Whatever the scanner has read before, it returns one line for each line fed to it, with its text,
and each of them is exact to the byte. -/
theorem scanNumbered_isByteExact (scanner : Scanner) (lines : List (Nat × List Char)) :
    List.Forall₂ (fun fed line => line.text = fed.2 ∧ line.IsByteExact) lines
      (scanner.scanNumbered lines) := by
  induction lines generalizing scanner with
  | nil => exact List.Forall₂.nil
  | cons fed rest inductionHypothesis =>
      obtain ⟨index, text⟩ := fed
      refine List.Forall₂.cons ⟨rfl, ?_⟩ (inductionHypothesis _)
      exact ScannedLine.isByteExact_of_laid (scanner.laid_scanLine index text)
        (scanner.code_scanLine index text)

end ScriptLint
