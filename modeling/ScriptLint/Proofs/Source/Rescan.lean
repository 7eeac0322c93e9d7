import ScriptLint.Proofs.Document.Lines
import ScriptLint.Proofs.Source.Step

/-!
# Scanning code again

The code of a line is a line of its own, in which comments are spaces. Scanning it in the place of
the line is a simulation: where the line has a character of a comment, the scanner reads the spaces
in its place as plain code, and every other character means what it meant in the line. The one thing
that could differ is the character of lookahead, when it is hidden; but then it is a slash that
opens a comment, and the character before it is no slash.

The state of the second scan is a function of that of the first, which `bare` takes: comments are
forgotten, and everything else stays. The main statement compares the two scans line by line.
-/

namespace ScriptLint

open Text

/-- What is read in the code where this is read in the line. -/
def Within.bare : Within → Within
  | .lineComment | .blockOpening | .blockComment | .blockClosing => .plain
  | .held after => .held after.bare
  | within => within

/-- What goes on in the code where this goes on in the line. -/
def Mode.bare : Mode → Mode
  | .blockComment => .code
  | mode => mode

def Scanner.bare (scanner : Scanner) : Scanner := { scanner with mode := scanner.mode.bare }

theorem Within.leave_bare (within : Within) : within.bare.leave = within.leave.bare := by
  induction within with
  | held after inductionHypothesis => exact inductionHypothesis
  | _ => rfl

namespace Progress

variable {read : List Char} {progress stepped : Progress} {context : LineContext} {letter : Char}
  {next : Option Char}

/-- The progress over the code where this is the progress over the line. -/
def bare (progress : Progress) : Progress :=
  { progress with
    within := progress.within.bare
    opened := progress.opened.filter (·.1 == .template)
    closed := progress.closed.filter (·.kind == .template) }

/-- What the rest of a line contributes to the code. -/
def shownOver (context : LineContext) : List Char → Progress → List Char
  | [], _ => []
  | letter :: rest, progress =>
      progress.shown letter rest.head? ++
        shownOver context rest (progress.read context letter rest.head?)

theorem code_readAll (context : LineContext) (letters : List Char) (progress : Progress) :
    (progress.readAll context letters).code =
      progress.code ++ shownOver context letters progress := by
  induction letters generalizing progress with
  | nil => exact (List.append_nil _).symm
  | cons letter rest inductionHypothesis =>
      have shownReversed : (progress.shown letter rest.head?).reverse =
          progress.shown letter rest.head? := by
        unfold shown
        split
        · exact List.reverse_replicate
        · rfl
      rw [Progress.readAll, inductionHypothesis, shownOver, code, reversed_read,
        List.reverse_append, shownReversed, List.append_assoc]
      rfl

/-! ## Spaces -/

/-- Passes spaces in code. -/
def skip (progress : Progress) (count : Nat) : Progress :=
  { progress with
    within := .plain
    reversed := List.replicate count ' ' ++ progress.reversed
    position := progress.position + count }

/-- What is read is code, so a space has no meaning of its own. -/
def ReadsCode (progress : Progress) : Prop :=
  progress.within = .plain ∨ progress.within = .word ∨ progress.within = .flags

theorem read_space (reads : progress.ReadsCode) : progress.read context ' ' next = progress.skip 1 := by
  have noComment : opensComment ' ' next = false := rfl
  have skipped : progress.readCode context ' ' none = progress.skip 1 := rfl
  unfold Progress.read
  rcases reads with within | within | within
  · rw [within]
    exact (readCode_of_not_opensComment noComment).trans skipped
  · rw [within]
    exact (readCode_of_not_opensComment noComment).trans skipped
  · simp only [within]
    rw [if_neg (by decide), readCode_goOn_plain within]
    exact (readCode_of_not_opensComment noComment).trans skipped

theorem readAll_spaces (reads : progress.ReadsCode) (count : Nat) (rest : List Char) :
    progress.readAll context (List.replicate (count + 1) ' ' ++ rest) =
      (progress.skip (count + 1)).readAll context rest := by
  induction count generalizing progress with
  | zero =>
      rw [List.replicate_one, List.singleton_append, Progress.readAll, read_space reads]
  | succ count inductionHypothesis =>
      have skipTwice : (progress.skip 1).skip (count + 1) = progress.skip (count + 2) := by
        simp only [skip, Progress.mk.injEq, true_and, and_true]
        refine ⟨?_, by omega⟩
        rw [← List.append_assoc, List.replicate_append_replicate]
      rw [List.replicate_succ, List.cons_append, Progress.readAll, read_space reads,
        inductionHypothesis (Or.inl rfl), skipTwice]

/-! ## One character in both scans -/

theorem region?_ne_comment (tracked : Tracks read progress)
    (shows : progress.hidesNext letter next = false) :
    progress.within.region? ≠ some .comment := by
  unfold hidesNext at shows
  cases within : progress.within with
  | held after => exact tracked.held_ne after within
  | lineComment | blockOpening | blockComment | blockClosing =>
      rw [within] at shows
      cases shows
  | _ => nofun

/-- Behind a shown character no comment is open. -/
theorem Keeps.opened_ne (keeps : Keeps context letter progress stepped)
    (outside : progress.opened.map Prod.fst ≠ some .comment) :
    stepped.opened.map Prod.fst ≠ some .comment := by
  cases keeps with
  | opensTemplate =>
      intro isComment
      cases isComment
  | closesTemplate =>
      have closed : (progress.keep letter).closeRegion.opened = none := opened_closeRegion
      simp only [goOn, remember, closed]
      intro isComment
      cases isComment
  | _ => exact outside

/-- Behind a shown character only a slash can be hidden. -/
theorem eq_slash_of_hidesNext (outside : progress.within.region? ≠ some .comment)
    (hides : progress.hidesNext letter next = true) : letter = '/' := by
  have slash : opensComment letter next = true → letter = '/' := by
    intro opens
    simp only [opensComment, Bool.and_eq_true, beq_iff_eq] at opens
    exact opens.1
  unfold hidesNext at hides
  cases within : progress.within with
  | plain | word | flags =>
      rw [within] at hides
      exact slash hides
  | lineComment | blockOpening | blockComment | blockClosing =>
      rw [within] at outside
      exact absurd rfl outside
  | string | regex | template | held =>
      rw [within] at hides
      cases hides

theorem bare_closeRegion_of_template (begun : progress.opened.map Prod.fst = some .template) :
    progress.closeRegion.bare = progress.bare.closeRegion := by
  obtain ⟨⟨kind, start⟩, opened, isTemplate⟩ := Option.map_eq_some_iff.mp begun
  have isTemplate : kind = .template := isTemplate
  subst isTemplate
  have bareOpened : progress.bare.opened = some (.template, start) := by
    simp only [bare, opened]
    rfl
  simp only [closeRegion, opened, bareOpened]
  rfl

theorem bare_closeRegion_of_comment (begun : progress.opened.map Prod.fst = some .comment) :
    progress.closeRegion.bare = progress.bare := by
  obtain ⟨⟨kind, start⟩, opened, isComment⟩ := Option.map_eq_some_iff.mp begun
  have isComment : kind = .comment := isComment
  subst isComment
  simp only [closeRegion, opened, bare]
  rfl

/-- Code that is kept is read in the same way in both scans. -/
theorem bare_readCode (reads : progress.within = .plain ∨ progress.within = .word)
    (noComment : opensComment letter next = false) :
    (progress.readCode context letter next).bare = progress.bare.readCode context letter none := by
  have noLookahead : ∀ marker, (letter == '/' && (none : Option Char) == some marker) = false :=
    fun marker => Bool.and_false _
  have sameWord : (progress.keepWord letter).bare = progress.bare.keepWord letter := by
    rcases reads with within | within
    · simp only [keepWord, bare, within]
      rfl
    · simp only [keepWord, bare, within]
      rfl
  rw [readCode_of_not_opensComment noComment]
  simp only [readCode, noLookahead, Bool.false_eq_true, if_false, apply_ite bare, sameWord]
  rfl

/-- A shown character means in the code what it means in the line. -/
theorem bare_read_of_shown (tracked : Tracks read progress)
    (shows : progress.hidesNext letter next = false) {later : Option Char}
    (ahead : later = next ∨ next = some '/' ∧ later = some ' ') :
    (progress.read context letter next).bare = progress.bare.read context letter later := by
  have noComment : opensComment letter next = false → opensComment letter later = false := by
    intro noComment
    rcases ahead with rfl | ⟨_, rfl⟩
    · exact noComment
    · exact Bool.and_false _
  have sameBrace : (later == some '\x7b') = (next == some '\x7b') := by
    rcases ahead with rfl | ⟨rfl, rfl⟩
    · rfl
    · rfl
  have codeAgrees : ∀ reading : Progress, reading.within = .plain ∨ reading.within = .word →
      opensComment letter next = false →
        (reading.readCode context letter next).bare =
          reading.bare.readCode context letter later := by
    intro reading reads noOpening
    rw [bare_readCode reads noOpening, ← readCode_of_not_opensComment (noComment noOpening)]
  have bareWithin : progress.bare.within = progress.within.bare := rfl
  unfold hidesNext at shows
  unfold Progress.read
  rw [bareWithin]
  cases within : progress.within with
  | plain =>
      rw [within] at shows
      exact codeAgrees progress (Or.inl within) shows
  | word =>
      rw [within] at shows
      exact codeAgrees progress (Or.inr within) shows
  | flags =>
      rw [within] at shows
      simp only [Within.bare, apply_ite bare]
      rw [codeAgrees (progress.goOn .plain) (Or.inl rfl) shows]
      rfl
  | string quote =>
      simp only [Within.bare, readString, apply_ite bare]
      rfl
  | regex inClass =>
      simp only [Within.bare, readRegex, apply_ite bare]
      rfl
  | template depth =>
      have region := tracked.region_eq
      rw [within] at region
      have closes : ((progress.keep letter).closeRegion.remember .value).bare =
          (progress.bare.keep letter).closeRegion.remember .value := by
        have closed : (progress.keep letter).closeRegion.bare =
            (progress.bare.keep letter).closeRegion := bare_closeRegion_of_template region
        rw [← closed]
        rfl
      have closesPlain :
          (((progress.keep letter).closeRegion.remember .value).goOn .plain).bare =
            ((progress.bare.keep letter).closeRegion.remember .value).goOn .plain := by
        rw [← closes]
        rfl
      simp only [Within.bare, readTemplate, sameBrace, apply_ite bare, closesPlain]
      rfl
  | held after => rfl
  | lineComment | blockOpening | blockComment | blockClosing =>
      rw [within] at shows
      cases shows

/-- A hidden character is in the code as many spaces as it has bytes. -/
theorem bare_read_of_hidden (tracked : Tracks read progress)
    (hides : progress.hidesNext letter next = true) :
    progress.bare.ReadsCode ∧
      (progress.read context letter next).bare = progress.bare.skip letter.utf8Size := by
  have region := tracked.region_eq
  have opened : ∀ reading : Progress, reading.opened = none →
      opensComment letter next = true →
        (reading.readCode context letter next).bare = reading.bare.skip letter.utf8Size := by
    intro reading closed opens
    rw [readCode_of_opensComment opens]
    simp only [bare, skip, closed]
    split
    · rfl
    · rfl
  have hidden : progress.bare.within = .plain →
      (progress.hide letter).bare = progress.bare.skip letter.utf8Size := by
    intro reads
    simp only [bare] at reads
    simp only [bare, skip, hide, reads]
  have bareWithin : progress.bare.within = progress.within.bare := rfl
  unfold hidesNext at hides
  unfold Progress.read
  cases within : progress.within with
  | plain =>
      rw [within] at hides region bareWithin
      exact ⟨Or.inl bareWithin, opened progress (Option.map_eq_none_iff.mp region) hides⟩
  | word =>
      rw [within] at hides region bareWithin
      exact ⟨Or.inr (Or.inl bareWithin), opened progress (Option.map_eq_none_iff.mp region) hides⟩
  | flags =>
      rw [within] at hides region bareWithin
      have noLetter : ¬ letter.isAlpha = true := by
        intro isLetter
        rw [opensComment_of_isAlpha isLetter] at hides
        cases hides
      refine ⟨Or.inr (Or.inr bareWithin), ?_⟩
      dsimp only
      rw [if_neg noLetter, readCode_goOn_plain within]
      exact opened progress (Option.map_eq_none_iff.mp region) hides
  | lineComment =>
      rw [within] at bareWithin
      exact ⟨Or.inl bareWithin, hidden bareWithin⟩
  | blockOpening =>
      rw [within] at bareWithin
      exact ⟨Or.inl bareWithin, rfl⟩
  | blockComment =>
      rw [within] at bareWithin
      refine ⟨Or.inl bareWithin, ?_⟩
      dsimp only
      split
      · rfl
      · exact hidden bareWithin
  | blockClosing =>
      rw [within] at bareWithin region
      have closed : ((progress.hide letter).closeRegion).bare = (progress.hide letter).bare :=
        bare_closeRegion_of_comment region
      refine ⟨Or.inl bareWithin, ?_⟩
      calc (((progress.hide letter).closeRegion).goOn .plain).bare
          = ((progress.hide letter).closeRegion).bare.goOn .plain := rfl
        _ = progress.bare.skip letter.utf8Size := by rw [closed]; rfl
  | string | regex | template | held =>
      rw [within] at hides
      cases hides

/-! ## The rest of a line -/

/-- Behind a shown character the code goes on as the line does, but for a slash that opens a
comment. -/
theorem head?_shownOver (outside : progress.within.region? ≠ some .comment)
    (context : LineContext) (letters : List Char) :
    (shownOver context letters progress).head? = letters.head? ∨
      letters.head? = some '/' ∧ (shownOver context letters progress).head? = some ' ' := by
  cases letters with
  | nil => exact Or.inl rfl
  | cons letter rest =>
      cases hides : progress.hidesNext letter rest.head? with
      | false =>
          left
          rw [shownOver, shown, hides]
          rfl
      | true =>
          have slash : letter = '/' := eq_slash_of_hidesNext outside hides
          right
          rw [shownOver, shown, hides, slash]
          exact ⟨rfl, rfl⟩

/-- Reading the code of a line forgets the comments of what the line was read as. -/
theorem bare_readAll (tracked : Tracks read progress) (context : LineContext)
    (letters : List Char) :
    (progress.readAll context letters).bare =
      progress.bare.readAll context (shownOver context letters progress) := by
  induction letters generalizing read progress with
  | nil => rfl
  | cons letter rest inductionHypothesis =>
      have stepped := tracked.step context letter rest.head?
      rw [Progress.readAll, inductionHypothesis stepped, shownOver, shown]
      -- meanwhile the second scan reads the same character, or all the spaces in its place
      cases hides : progress.hidesNext letter rest.head? with
      | true =>
          obtain ⟨reads, skipped⟩ := bare_read_of_hidden tracked hides
          obtain ⟨count, size⟩ : ∃ count, letter.utf8Size = count + 1 :=
            Nat.exists_eq_add_one.mpr letter.utf8Size_pos
          rw [if_pos rfl, size, readAll_spaces reads, ← size, skipped]
      | false =>
          have outside : (progress.read context letter rest.head?).within.region? ≠ some .comment := by
            rw [← stepped.region_eq]
            apply (Keeps.read hides).opened_ne
            rw [tracked.region_eq]
            exact region?_ne_comment tracked hides
          have ahead := head?_shownOver outside context rest
          rw [if_neg Bool.false_ne_true, List.singleton_append, Progress.readAll,
            bare_read_of_shown tracked hides ahead]

/-- The regions of the code are the template literals of the line. -/
theorem regions_bare (progress : Progress) :
    progress.bare.regions = progress.regions.filter (·.kind == .template) := by
  have closedEq : progress.bare.closeRegion.closed =
      progress.closeRegion.closed.filter (·.kind == .template) := by
    cases opened : progress.opened with
    | none =>
        simp only [closeRegion, bare, opened]
        rfl
    | some region =>
        obtain ⟨kind, start⟩ := region
        cases kind with
        | comment =>
            simp only [closeRegion, bare, opened]
            rfl
        | template =>
            simp only [closeRegion, bare, opened]
            rfl
  rw [regions, regions, closedEq, List.filter_reverse]

end Progress

/-! ## Lines -/

/-- What is learned about the code of a line, in the place of the line, is what was learned about
the line, but for the comments. -/
structure ScannedLine.IsRescanned (line again : ScannedLine) : Prop where
  text_eq : again.text = line.code
  code_eq : again.code = line.code
  startStack_eq : again.startStack = line.startStack
  endStack_eq : again.endStack = line.endStack
  startsInTemplate_eq : again.startsInTemplate = line.startsInTemplate
  isDecorator_eq : again.isDecorator = line.isDecorator
  isCode_eq : again.isCode = line.isCode
  templates_eq : again.regions.filter (·.kind == .template) =
    line.regions.filter (·.kind == .template)
  no_comment : ∀ region ∈ again.regions, region.kind ≠ .comment

/-- A line carries code exactly if there is something in its code. -/
theorem ScannedLine.isCode_eq {line : ScannedLine}
    (codeEq : line.code = blankWhere line.isInComment 0 line.text) :
    line.isCode = !line.trimmed.isEmpty := by
  have blankCode : line.isBlank = true → line.trimmed = [] := by
    intro blank
    rw [isBlank, Text.isBlank, List.all_eq_true] at blank
    rw [trimmed, trim_eq_nil_iff, codeEq, forall_isSpace_blankWhere]
    intro before letter after textEq _
    apply blank
    rw [textEq]
    exact List.mem_append_right before List.mem_cons_self
  rw [isCode, isComment]
  cases blank : line.isBlank with
  | true =>
      rw [blankCode blank]
      rfl
  | false => rfl

namespace Scanner

variable (scanner : Scanner) (index : Nat) (text : List Char)

theorem bare_begin : scanner.begin.bare = scanner.bare.begin := by
  simp only [begin, Progress.bare, bare]
  cases scanner.mode with
  | code => rfl
  | blockComment => rfl
  | template depth => rfl

theorem isInTemplate_bare : scanner.bare.isInTemplate = scanner.isInTemplate := by
  simp only [isInTemplate, bare]
  cases scanner.mode with
  | code => rfl
  | blockComment => rfl
  | template depth => rfl

theorem progressOver_code :
    scanner.bare.progressOver index (scanner.scanLine index text).1.code =
      (scanner.progressOver index text).bare := by
  have codeEq : (scanner.scanLine index text).1.code =
      Progress.shownOver ⟨index, scanner.previous⟩ text scanner.begin :=
    Progress.code_readAll _ text scanner.begin
  rw [codeEq, progressOver, progressOver, Progress.bare_readAll scanner.tracks_begin, bare_begin]
  rfl

/-- The scanner behind a line. -/
theorem scanLine_snd :
    (scanner.scanLine index text).2 =
      { mode := (scanner.progressOver index text).within.leave
        stack := (scanner.progressOver index text).stack
        last := (scanner.progressOver index text).last
        previous :=
          if (trim (scanner.progressOver index text).code).isEmpty || scanner.isInTemplate then
            scanner.previous
          else trim (scanner.progressOver index text).code } := rfl

/-- Behind the code the scanner is where it was behind the line, though not in a comment. -/
theorem scanLine_code_snd :
    (scanner.bare.scanLine index (scanner.scanLine index text).1.code).2 =
      (scanner.scanLine index text).2.bare := by
  rw [scanLine_snd, scanLine_snd, progressOver_code, isInTemplate_bare]
  simp only [bare, Scanner.mk.injEq]
  exact ⟨Within.leave_bare _, rfl, rfl, rfl⟩

theorem isRescanned_scanLine :
    ScannedLine.IsRescanned (scanner.scanLine index text).1
      (scanner.bare.scanLine index (scanner.scanLine index text).1.code).1 := by
  generalize againEq :
    (scanner.bare.scanLine index (scanner.scanLine index text).1.code).1 = again
  have progressEq := scanner.progressOver_code index text
  have codeEq : again.code = (scanner.scanLine index text).1.code := by
    rw [← againEq]
    exact (congrArg Progress.code progressEq).trans rfl
  have stackEq : again.endStack = (scanner.scanLine index text).1.endStack := by
    rw [← againEq]
    exact (congrArg Progress.stack progressEq).trans rfl
  have regionsEq : again.regions =
      (scanner.scanLine index text).1.regions.filter (·.kind == .template) := by
    rw [← againEq]
    exact (congrArg Progress.regions progressEq).trans (Progress.regions_bare _)
  have templateEq : again.startsInTemplate = (scanner.scanLine index text).1.startsInTemplate := by
    rw [← againEq]
    exact scanner.isInTemplate_bare
  have trimmedEq : again.trimmed = (scanner.scanLine index text).1.trimmed :=
    congrArg trim codeEq
  have againCode : again.code = blankWhere again.isInComment 0 again.text := by
    rw [← againEq]
    exact code_scanLine _ _ _
  constructor
  case text_eq => exact againEq ▸ rfl
  case code_eq => exact codeEq
  case startStack_eq => exact againEq ▸ rfl
  case endStack_eq => exact stackEq
  case startsInTemplate_eq => exact templateEq
  case isDecorator_eq => rw [ScannedLine.isDecorator, ScannedLine.isDecorator, templateEq, trimmedEq]
  case isCode_eq =>
    rw [ScannedLine.isCode_eq againCode, ScannedLine.isCode_eq (scanner.code_scanLine index text),
      trimmedEq]
  case templates_eq =>
    rw [regionsEq, List.filter_filter]
    simp only [Bool.and_self]
  case no_comment =>
    intro region member isComment
    rw [regionsEq, List.mem_filter, isComment] at member
    exact absurd member.2 (by decide)

/-- From wherever the scanner is, scanning the code in the place of the lines gives line by line what
scanning the lines gave, comments apart. -/
theorem forall₂_isRescanned (lines : List (Nat × List Char)) :
    List.Forall₂ ScannedLine.IsRescanned (scanner.scanNumbered lines)
      (scanner.bare.scanNumbered
        (List.zipWith (fun fed line => (fed.1, line.code)) lines
          (scanner.scanNumbered lines))) := by
  induction lines generalizing scanner with
  | nil => exact List.Forall₂.nil
  | cons fed rest inductionHypothesis =>
      obtain ⟨index, text⟩ := fed
      have later := inductionHypothesis (scanner.scanLine index text).2
      rw [← scanLine_code_snd] at later
      exact List.Forall₂.cons (scanner.isRescanned_scanLine index text) later

end Scanner

/-- Lines are scanned afresh, and then their code is scanned afresh under the same numbers. There is
one line of either scan for each line that was fed, and the second scan learns about the code what
the first has learned about the line: the code, the stacks, the flags and the template literals are
the same, and there is no comment any more. -/
theorem scanNumbered_code (lines : List (Nat × List Char)) :
    let once := ({} : Scanner).scanNumbered lines
    let again := ({} : Scanner).scanNumbered
      (List.zipWith (fun fed line => (fed.1, line.code)) lines once)
    once.map (·.text) = lines.map (·.2) ∧ List.Forall₂ ScannedLine.IsRescanned once again := by
  intro once again
  have textsEq : once.map (·.text) = lines.map (·.2) :=
    ({} : Scanner).map_text_scanNumbered lines
  have rescanned : List.Forall₂ ScannedLine.IsRescanned once again :=
    ({} : Scanner).forall₂_isRescanned lines
  exact ⟨textsEq, rescanned⟩

end ScriptLint
