import ScriptLint.Proofs.Source.Rescan

/-!
# The kind of each byte

Before a character is read it is settled which kind of region covers it: the one that is open, or
the one that the character opens. The regions found on a line hold the bytes of exactly the
characters of their kind, so the line can be looked at as a list with one kind for each byte.

What is read depends on the character behind it only if that one is a slash, a star or an opening
brace, so a line can be cut in front of anything else.
-/

namespace ScriptLint

open Text

namespace Progress

variable {read : List Char} {progress : Progress} {context : LineContext} {letter : Char}
  {next : Option Char} {kind : RegionKind}

/-- Whether a byte position lies in a region of a kind among those of the characters read so far. -/
def covers (progress : Progress) (kind : RegionKind) (position : Nat) : Bool :=
  progress.covered.any fun region => region.kind == kind && region.holds position

/-- The kind of the region that covers the next character. -/
def kindNext (progress : Progress) (letter : Char) (next : Option Char) : Option RegionKind :=
  match progress.within with
  | .plain | .word | .flags =>
      if opensComment letter next then some .comment
      else if letter = '`' then some .template
      else none
  | within => within.region?

/-- The kind of the region that covers each byte of the rest of a line. -/
def kindsOver (context : LineContext) : List Char → Progress → List (Option RegionKind)
  | [], _ => []
  | letter :: rest, progress =>
      List.replicate letter.utf8Size (progress.kindNext letter rest.head?) ++
        kindsOver context rest (progress.read context letter rest.head?)

theorem length_kindsOver (context : LineContext) (letters : List Char) (progress : Progress) :
    (progress.kindsOver context letters).length = byteLength letters := by
  induction letters generalizing progress with
  | nil => rfl
  | cons letter rest inductionHypothesis =>
      rw [kindsOver, List.length_append, List.length_replicate, inductionHypothesis,
        byteLength_cons]

/-! ## One character -/

/-- The regions behind a character of a kind: a region that is open extends over it, a new one
begins with it, and without a kind there is none. -/
def coveredBehind (progress : Progress) (letter : Char) : Option RegionKind → List Region
  | none => progress.closed
  | some kind =>
      ⟨kind, (progress.opened.map Prod.snd).getD progress.position,
        progress.position + letter.utf8Size⟩ :: progress.closed

theorem covered_readCode (closed : progress.opened = none) :
    (progress.readCode context letter next).covered =
      progress.coveredBehind letter
        (if opensComment letter next then some .comment
          else if letter = '`' then some .template
          else none) := by
  by_cases opens : opensComment letter next = true
  · rw [if_pos opens, readCode_of_opensComment opens]
    simp only [coveredBehind, closed]
    rfl
  · have noComment : opensComment letter next = false := Bool.eq_false_iff.mpr opens
    rw [if_neg opens, readCode_of_not_opensComment noComment]
    by_cases backtick : letter = '`'
    · subst backtick
      simp only [coveredBehind, closed]
      rfl
    · have stays : ∀ stepped : Progress, stepped.opened = none → stepped.closed = progress.closed →
          stepped.covered = progress.coveredBehind letter none := by
        intro stepped opened sameClosed
        rw [covered_of_opened_eq_none opened, sameClosed]
        rfl
      rw [if_neg backtick]
      simp only [readCode, beq_iff_eq, backtick, if_false, reduceCtorEq, and_false,
        Bool.and_eq_true]
      split_ifs
      all_goals exact stays _ closed rfl

theorem covered_goOn (within : Within) : (progress.goOn within).covered = progress.covered :=
  covered_congr rfl rfl rfl

theorem covered_remember (last : Token) : (progress.remember last).covered = progress.covered :=
  covered_congr rfl rfl rfl

theorem covered_closeRegion : progress.closeRegion.covered = progress.covered :=
  covered_of_opened_eq_none opened_closeRegion

/-- A character that is passed extends the open region, if any. -/
theorem covered_keep (progress : Progress) (letter : Char) :
    (progress.keep letter).covered =
      progress.coveredBehind letter (progress.opened.map Prod.fst) := by
  cases opened : progress.opened with
  | none => exact covered_of_opened_eq_none opened
  | some region =>
      rw [covered_of_opened_eq_some (show (progress.keep letter).opened = some region from opened)]
      simp only [coveredBehind, opened]
      rfl

theorem covered_hide (progress : Progress) (letter : Char) :
    (progress.hide letter).covered = (progress.keep letter).covered :=
  covered_congr rfl rfl rfl

theorem covered_ite {condition : Prop} [Decidable condition] {first second : Progress}
    {regions : List Region} (whenTrue : first.covered = regions)
    (whenFalse : second.covered = regions) :
    (if condition then first else second).covered = regions := by
  by_cases decided : condition
  · rw [if_pos decided]
    exact whenTrue
  · rw [if_neg decided]
    exact whenFalse

/-- Reading a character covers it with its kind. -/
theorem covered_read (tracked : Tracks read progress) :
    (progress.read context letter next).covered =
      progress.coveredBehind letter (progress.kindNext letter next) := by
  have region := tracked.region_eq
  have kept : (progress.keep letter).covered =
      progress.coveredBehind letter progress.within.region? := by
    rw [covered_keep, region]
  have hidden : (progress.hide letter).covered =
      progress.coveredBehind letter progress.within.region? := by
    rw [covered_hide, kept]
  have goesOn : ∀ within, ((progress.keep letter).goOn within).covered =
      progress.coveredBehind letter progress.within.region? := by
    intro within
    rw [covered_goOn, kept]
  have hidesOn : ∀ within, ((progress.hide letter).goOn within).covered =
      progress.coveredBehind letter progress.within.region? := by
    intro within
    rw [covered_goOn, hidden]
  unfold Progress.read kindNext
  cases within : progress.within with
  | plain | word =>
      rw [within] at region
      exact covered_readCode (Option.map_eq_none_iff.mp region)
  | flags =>
      rw [within] at region kept
      have closed : progress.opened = none := Option.map_eq_none_iff.mp region
      dsimp only
      by_cases isLetter : letter.isAlpha = true
      · have noBacktick : letter ≠ '`' := by
          rintro rfl
          exact absurd isLetter (by decide)
        rw [if_pos isLetter, opensComment_of_isAlpha isLetter, if_neg Bool.false_ne_true,
          if_neg noBacktick]
        exact kept
      · rw [if_neg isLetter, readCode_goOn_plain within]
        exact covered_readCode closed
  | string quote =>
      rw [within] at kept goesOn
      exact covered_ite (goesOn _) (covered_ite (goesOn _) kept)
  | regex inClass =>
      rw [within] at kept goesOn
      exact covered_ite (goesOn _) (covered_ite (goesOn _) (covered_ite (goesOn _)
        (covered_ite (goesOn _) kept)))
  | lineComment =>
      rw [within] at hidden
      exact hidden
  | blockOpening =>
      rw [within] at hidesOn
      exact hidesOn _
  | blockComment =>
      rw [within] at hidden hidesOn
      exact covered_ite (hidesOn _) hidden
  | blockClosing =>
      rw [within] at hidden
      rw [covered_goOn, covered_closeRegion]
      exact hidden
  | template depth =>
      rw [within] at kept goesOn
      refine covered_ite (goesOn _) (covered_ite (goesOn _) (covered_ite (goesOn _)
        (covered_ite (goesOn _) (covered_ite ?_ kept))))
      rw [covered_goOn, covered_remember, covered_closeRegion]
      exact kept
  | held after =>
      rw [within] at goesOn
      exact goesOn _

theorem kindNext_of_region? (open_eq : progress.within.region? = some kind) :
    progress.kindNext letter next = some kind := by
  unfold kindNext
  cases within : progress.within with
  | plain | word | flags =>
      rw [within] at open_eq
      cases open_eq
  | _ =>
      rw [within] at open_eq
      exact open_eq

/-- A byte is covered by a kind if it was before, or if it belongs to the character that was read
and that character is of the kind. -/
theorem covers_read (tracked : Tracks read progress) (kind : RegionKind) (position : Nat) :
    (progress.read context letter next).covers kind position = true ↔
      progress.covers kind position = true ∨
        progress.kindNext letter next = some kind ∧ byteLength read ≤ position ∧
          position < byteLength read + letter.utf8Size := by
  have measured := tracked.laid.position_eq
  rw [covers, covered_read tracked, covers]
  cases opened : progress.opened with
  | none =>
      rw [covered_of_opened_eq_none opened]
      cases progress.kindNext letter next with
      | none => simp [coveredBehind]
      | some next =>
          simp only [coveredBehind, opened, measured, List.any_cons, Bool.or_eq_true,
            Bool.and_eq_true, beq_iff_eq, Region.holds, decide_eq_true_eq, Option.map_none,
            Option.getD_none, Option.some.injEq]
          exact or_comm
  | some region =>
      obtain ⟨current, start⟩ := region
      have isOpen : progress.within.region? = some current := by
        rw [← tracked.region_eq, opened]
        rfl
      -- the open region begins within the characters read so far
      have startInside : start ≤ byteLength read := by
        have regions := tracked.laid.regions
        rw [covered_of_opened_eq_some opened] at regions
        exact (regions.bounded _ List.mem_cons_self).1.le_byteLength
      rw [covered_of_opened_eq_some opened, kindNext_of_region? isOpen]
      simp only [coveredBehind, opened, measured, List.any_cons, Bool.or_eq_true,
        Bool.and_eq_true, beq_iff_eq, Region.holds, decide_eq_true_eq, Option.map_some,
        Option.getD_some, Option.some.injEq]
      have split : start ≤ position ∧ position < byteLength read + letter.utf8Size ↔
          start ≤ position ∧ position < byteLength read ∨
            byteLength read ≤ position ∧ position < byteLength read + letter.utf8Size := by
        omega
      rw [split, and_or_left, or_right_comm]

/-! ## The rest of a line -/

/-- The kind of a byte among those of a character and of what follows it. -/
theorem getElem?_replicate_append {α : Type} {count : Nat} {here found : α} {later : List α}
    {offset : Nat} :
    (List.replicate count here ++ later)[offset]? = some found ↔
      here = found ∧ offset < count ∨
        ∃ further, offset = count + further ∧ later[further]? = some found := by
  by_cases first : offset < count
  · rw [List.getElem?_append_left (by rwa [List.length_replicate]),
      List.getElem?_replicate_of_lt first, Option.some.injEq]
    constructor
    · exact fun same => Or.inl ⟨same, first⟩
    · rintro (⟨same, _⟩ | ⟨further, offsetEq, _⟩)
      · exact same
      · omega
  · rw [List.getElem?_append_right (by rw [List.length_replicate]; omega), List.length_replicate]
    constructor
    · exact fun foundLater => Or.inr ⟨offset - count, by omega, foundLater⟩
    · rintro (⟨_, below⟩ | ⟨further, offsetEq, foundLater⟩)
      · exact absurd below first
      · rwa [offsetEq, Nat.add_sub_cancel_left]

/-- The regions behind the rest of a line hold the bytes they held before and the bytes of the rest
that are of their kind. -/
theorem covers_readAll (tracked : Tracks read progress) (context : LineContext)
    (letters : List Char) (kind : RegionKind) (position : Nat) :
    (progress.readAll context letters).covers kind position = true ↔
      progress.covers kind position = true ∨
        ∃ offset, position = byteLength read + offset ∧
          (progress.kindsOver context letters)[offset]? = some (some kind) := by
  induction letters generalizing read progress with
  | nil => simp [readAll, kindsOver]
  | cons letter rest inductionHypothesis =>
      rw [readAll, inductionHypothesis (tracked.step context letter rest.head?),
        covers_read tracked, or_assoc, kindsOver]
      refine or_congr_right ?_
      simp only [getElem?_replicate_append, byteLength_append, byteLength_cons, byteLength_nil]
      constructor
      · rintro (⟨isKind, above, below⟩ | ⟨offset, positionEq, found⟩)
        · exact ⟨position - byteLength read, by omega, Or.inl ⟨isKind, by omega⟩⟩
        · exact ⟨letter.utf8Size + offset, by omega, Or.inr ⟨offset, rfl, found⟩⟩
      · rintro ⟨offset, positionEq, ⟨isKind, below⟩ | ⟨further, offsetEq, found⟩⟩
        · exact Or.inl ⟨isKind, by omega, by omega⟩
        · exact Or.inr ⟨further, by omega, found⟩

/-! ## Template literals -/

/-- Without a backtick no template literal begins. -/
theorem region?_read_ne (outside : progress.within.region? ≠ some .template)
    (noBacktick : letter ≠ '`') :
    (progress.read context letter next).within.region? ≠ some .template := by
  have noRegion : (none : Option RegionKind) ≠ some .template := by decide
  have isComment : some RegionKind.comment ≠ some .template := by decide
  have code : ∀ reading : Progress,
      (reading.readCode context letter next).within.region? ≠ some .template := by
    intro reading
    simp only [readCode, beq_iff_eq, noBacktick, if_false]
    split_ifs
    all_goals
      intro isTemplate
      cases isTemplate
  have kept : (progress.keep letter).within.region? ≠ some .template := outside
  unfold Progress.read
  cases within : progress.within with
  | plain | word => exact code progress
  | flags =>
      dsimp only
      split_ifs
      · exact kept
      · exact code _
  | string quote =>
      dsimp only [readString]
      split_ifs
      · exact noRegion
      · exact noRegion
      · exact kept
  | regex inClass =>
      dsimp only [readRegex]
      split_ifs
      · exact noRegion
      · exact noRegion
      · exact noRegion
      · exact noRegion
      · exact kept
  | lineComment => exact kept
  | blockOpening => exact isComment
  | blockComment =>
      dsimp only
      split_ifs
      · exact isComment
      · exact kept
  | blockClosing => exact noRegion
  | template depth => exact absurd (by rw [within]; rfl) outside
  | held after =>
      rw [within] at outside
      exact outside

theorem kindNext_ne (outside : progress.within.region? ≠ some .template)
    (noBacktick : letter ≠ '`') : progress.kindNext letter next ≠ some .template := by
  unfold kindNext
  cases within : progress.within with
  | plain | word | flags =>
      dsimp only
      rw [if_neg noBacktick]
      split_ifs
      · nofun
      · nofun
  | _ =>
      rw [within] at outside
      exact outside

theorem getElem?_kindsOver_ne (outside : progress.within.region? ≠ some .template)
    {letters : List Char} (noBacktick : '`' ∉ letters) (offset : Nat) :
    (progress.kindsOver context letters)[offset]? ≠ some (some .template) := by
  induction letters generalizing progress offset with
  | nil => nofun
  | cons letter rest inductionHypothesis =>
      rw [List.mem_cons, not_or] at noBacktick
      rw [kindsOver, Ne, getElem?_replicate_append]
      rintro (⟨isTemplate, _⟩ | ⟨further, _, found⟩)
      · exact kindNext_ne outside (Ne.symm noBacktick.1) isTemplate
      · exact inductionHypothesis (region?_read_ne outside (Ne.symm noBacktick.1)) noBacktick.2
          further found

/-! ## Looking ahead -/

/-- The characters that mean something to the character in front of them. -/
def partners : List Char := ['/', '*', '\x7b']

/-- The next character is no partner. -/
def StandsAlone (next : Option Char) : Prop := ∀ partner ∈ partners, next ≠ some partner

theorem StandsAlone.beq_eq_false (alone : StandsAlone next) :
    (next == some '/') = false ∧ (next == some '*') = false ∧ (next == some '\x7b') = false := by
  simp only [beq_eq_false_iff_ne]
  exact ⟨alone _ (by decide), alone _ (by decide), alone _ (by decide)⟩

theorem opensComment_of_standsAlone (alone : StandsAlone next) :
    opensComment letter next = false := by
  obtain ⟨noSlash, noStar, _⟩ := alone.beq_eq_false
  rw [opensComment, noSlash, noStar, Bool.or_false, Bool.and_false]

/-- In front of anything but a partner, a character means what it means at the end of a line. -/
theorem read_eq_of_standsAlone (alone : StandsAlone next) :
    progress.read context letter next = progress.read context letter none := by
  obtain ⟨noSlash, noStar, noBrace⟩ := alone.beq_eq_false
  have nothing : ∀ partner : Char, ((none : Option Char) == some partner) = false := fun _ => rfl
  have sameCode : ∀ reading : Progress,
      reading.readCode context letter next = reading.readCode context letter none := fun _ =>
    readCode_of_not_opensComment (opensComment_of_standsAlone alone)
  unfold read
  cases progress.within with
  | plain | word => exact sameCode progress
  | flags =>
      dsimp only
      rw [sameCode]
  | blockComment => simp only [noSlash, nothing]
  | template depth => simp only [readTemplate, noBrace, nothing]
  | _ => rfl

theorem kindNext_eq_of_standsAlone (alone : StandsAlone next) :
    progress.kindNext letter next = progress.kindNext letter none := by
  have nothing : opensComment letter none = false := by simp [opensComment]
  unfold kindNext
  rw [opensComment_of_standsAlone alone, nothing]

theorem standsAlone_none : StandsAlone none := fun _ _ => nofun

theorem standsAlone_some {letter : Char} (other : letter ∉ partners) : StandsAlone (some letter) :=
  fun _ member same => other (Option.some.inj same ▸ member)

/-- A line can be cut in front of a character that is no partner. -/
theorem readAll_append (front : List Char) {back : List Char} (alone : StandsAlone back.head?) :
    progress.readAll context (front ++ back) =
      (progress.readAll context front).readAll context back := by
  induction front generalizing progress with
  | nil => rfl
  | cons letter rest inductionHypothesis =>
      rw [List.cons_append, readAll, readAll, inductionHypothesis]
      cases rest with
      | nil =>
          rw [List.nil_append, List.head?_nil]
          exact congrArg (fun reached : Progress => (reached.readAll context []).readAll context back)
            (read_eq_of_standsAlone alone)
      | cons following others => rfl

theorem kindsOver_append (front : List Char) {back : List Char} (alone : StandsAlone back.head?) :
    progress.kindsOver context (front ++ back) =
      progress.kindsOver context front ++
        (progress.readAll context front).kindsOver context back := by
  induction front generalizing progress with
  | nil => rfl
  | cons letter rest inductionHypothesis =>
      rw [List.cons_append, kindsOver, kindsOver, inductionHypothesis, List.append_assoc]
      cases rest with
      | nil =>
          rw [List.nil_append, List.head?_nil, kindNext_eq_of_standsAlone alone,
            read_eq_of_standsAlone alone]
          rfl
      | cons following others => rfl

end Progress

/-! ## Lines -/

namespace Scanner

variable (scanner : Scanner) (index : Nat) (text : List Char)

/-- The kind of the region that covers each byte of a line. -/
def kindsOn : List (Option RegionKind) :=
  scanner.begin.kindsOver ⟨index, scanner.previous⟩ text

/-- Nothing has been read at the start of a line, so the open region holds nothing. -/
theorem covers_begin (kind : RegionKind) (position : Nat) :
    scanner.begin.covers kind position = false := by
  rw [Progress.covers]
  cases opened : scanner.mode.opened with
  | none =>
      rw [Progress.covered_of_opened_eq_none (show scanner.begin.opened = none from opened)]
      rfl
  | some region =>
      rw [Progress.covered_of_opened_eq_some
        (show scanner.begin.opened = some (region.1, region.2) from opened)]
      simp [Region.holds, begin]

theorem covers_progressOver (kind : RegionKind) (position : Nat) :
    (scanner.progressOver index text).covers kind position = true ↔
      (scanner.kindsOn index text)[position]? = some (some kind) := by
  rw [progressOver, Progress.covers_readAll scanner.tracks_begin, covers_begin]
  simp [kindsOn]

/-- A byte of a line lies in a region of a kind exactly if it is of the kind. -/
theorem isIn_scanLine (kind : RegionKind) (position : Nat) :
    (scanner.scanLine index text).1.isIn kind position = true ↔
      (scanner.kindsOn index text)[position]? = some (some kind) := by
  have reversed : (scanner.scanLine index text).1.isIn kind position =
      (scanner.progressOver index text).covers kind position := List.any_reverse
  rw [reversed, covers_progressOver]

end Scanner

end ScriptLint
