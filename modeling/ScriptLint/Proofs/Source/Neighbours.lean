import ScriptLint.Proofs.Source.Reading

/-!
# The neighbours of code

A comment begins and ends with a slash. So a character of the code has the same neighbours in the
code as in the line, except that a slash of a comment is a space in the code. Therefore a class of
characters that has neither the slash nor the space meets a run of code in the line exactly if it
meets it in the code.
-/

namespace ScriptLint

open Text

/-- The neighbour in the line is the one in the code, or a slash where the code has a space. -/
def MeetsAs (written shown : Option Char) : Prop :=
  shown = written ∨ (written = some '/' ∧ shown = some ' ')

namespace MeetsAs

variable {written shown : Option Char} {test : Char → Bool}

theorem refl (written : Option Char) : MeetsAs written written := .inl rfl

theorem any_eq (meets : MeetsAs written shown) (noSlash : test '/' = false)
    (noSpace : test ' ' = false) : written.any test = shown.any test := by
  rcases meets with rfl | ⟨rfl, rfl⟩
  · rfl
  · rw [Option.any_some, Option.any_some, noSlash, noSpace]

end MeetsAs

theorem eq_nil_of_byteLength {letters : List Char} (noBytes : byteLength letters = 0) :
    letters = [] := by
  have short := length_le_byteLength letters
  exact List.eq_nil_of_length_eq_zero (by omega)

namespace Progress

variable {read : List Char} {progress : Progress} {context : LineContext} {letter : Char}
  {next : Option Char}

/-! ## The end of a comment -/

/-- If the end of a block comment is read, its slash comes next. -/
def ClosesWith (progress : Progress) (next : Option Char) : Prop :=
  progress.within = .blockClosing → next = some '/'

theorem ClosesWith.of_ne (other : progress.within ≠ .blockClosing) : progress.ClosesWith next :=
  fun closing => absurd closing other

theorem ClosesWith.ite {condition : Prop} [Decidable condition] {first second : Progress}
    (whenTrue : first.ClosesWith next) (whenFalse : second.ClosesWith next) :
    (if condition then first else second).ClosesWith next := by
  by_cases decided : condition
  · rw [if_pos decided]
    exact whenTrue
  · rw [if_neg decided]
    exact whenFalse

theorem closesWith_readCode : (progress.readCode context letter next).ClosesWith next := by
  have other : ∀ stepped : Progress, ∀ within, within ≠ .blockClosing →
      (stepped.goOn within).ClosesWith next := fun _ _ notEnd => .of_ne notEnd
  unfold Progress.readCode
  refine .ite (other _ _ nofun) (.ite (other _ _ nofun) (.ite (other _ _ nofun)
    (.ite (other _ _ nofun) (.ite (other _ _ nofun) (.ite (other _ _ nofun) (.ite (other _ _ nofun)
      (.ite (other _ _ nofun) (.ite (other _ _ nofun) (.ite (other _ _ nofun)
        (.ite (other _ _ nofun) (other _ _ nofun)))))))))))

/-- Only a star with a slash behind it begins the end of a block comment. -/
theorem closesWith_read (tracked : Tracks read progress) :
    (progress.read context letter next).ClosesWith next := by
  have stays : progress.within ≠ .blockClosing → (progress.keep letter).ClosesWith next := .of_ne
  unfold Progress.read
  cases within : progress.within with
  | plain | word => exact closesWith_readCode
  | flags =>
      rw [within] at stays
      exact .ite (stays nofun) closesWith_readCode
  | string quote =>
      rw [within] at stays
      exact .ite (.of_ne nofun) (.ite (.of_ne nofun) (stays nofun))
  | regex inClass =>
      rw [within] at stays
      exact .ite (.of_ne nofun) (.ite (.of_ne nofun) (.ite (.of_ne nofun)
        (.ite (.of_ne nofun) (stays nofun))))
  | template depth =>
      rw [within] at stays
      exact .ite (.of_ne nofun) (.ite (.of_ne nofun) (.ite (.of_ne nofun)
        (.ite (.of_ne nofun) (.ite (.of_ne nofun) (stays nofun)))))
  | lineComment =>
      rw [within] at stays
      exact stays nofun
  | blockOpening => exact .of_ne nofun
  | blockComment =>
      rw [within] at stays
      dsimp only
      split
      · next ends =>
          rw [Bool.and_eq_true, beq_iff_eq, beq_iff_eq] at ends
          exact fun _ => ends.2
      · exact stays nofun
  | blockClosing => exact .of_ne nofun
  | held after =>
      have noComment := tracked.held_ne after within
      exact .of_ne fun (closing : after = .blockClosing) => noComment (closing ▸ rfl)

/-- A hidden character with a shown one behind it is the slash at the end of a comment. -/
theorem eq_slash_of_shown {following : Char} {beyond : Option Char}
    (closes : progress.ClosesWith (some letter))
    (hides : progress.hidesNext letter (some following) = true)
    (shows : (progress.read context letter (some following)).hidesNext following beyond = false) :
    letter = '/' := by
  have opened : opensComment letter (some following) = true →
      (progress.readCode context letter (some following)).hidesNext following beyond ≠ false := by
    intro opens
    rw [readCode_of_opensComment opens]
    split_ifs
    · exact Bool.noConfusion
    · exact Bool.noConfusion
  unfold hidesNext at hides
  unfold Progress.read at shows
  cases within : progress.within with
  | plain | word =>
      rw [within] at hides shows
      exact absurd shows (opened hides)
  | flags =>
      rw [within] at hides shows
      have noLetter : ¬ letter.isAlpha = true := by
        intro isLetter
        rw [opensComment_of_isAlpha isLetter] at hides
        cases hides
      dsimp only at shows
      rw [if_neg noLetter, readCode_goOn_plain within] at shows
      exact absurd shows (opened hides)
  | lineComment =>
      rw [within] at shows
      have inComment : (progress.hide letter).within = .lineComment := within
      simp only [hidesNext, inComment] at shows
      cases shows
  | blockOpening =>
      rw [within] at shows
      cases shows
  | blockComment =>
      rw [within] at shows
      dsimp only at shows
      split at shows
      · cases shows
      · have inComment : (progress.hide letter).within = .blockComment := within
        simp only [hidesNext, inComment] at shows
        cases shows
  | blockClosing => exact Option.some.inj (closes within)
  | string | regex | template | held =>
      rw [within] at hides
      cases hides

/-! ## A run of the code -/

/-- One more character in front keeps the neighbour, unless it is the neighbour itself. -/
theorem meetsAs_getLast?_append {front shown between initial : List Char}
    (measured : byteLength initial = byteLength between)
    (meets : MeetsAs initial.getLast? between.getLast?)
    (first : initial = [] → between = [] → MeetsAs front.getLast? shown.getLast?) :
    MeetsAs (front ++ initial).getLast? (shown ++ between).getLast? := by
  by_cases empty : initial = []
  · have emptyBetween : between = [] := eq_nil_of_byteLength (by rw [← measured, empty]; rfl)
    rw [empty, emptyBetween, List.append_nil, List.append_nil]
    exact first empty emptyBetween
  · have someBetween : between ≠ [] := by
      rintro rfl
      exact empty (eq_nil_of_byteLength measured)
    rwa [List.getLast?_append_of_ne_nil _ empty, List.getLast?_append_of_ne_nil _ someBetween]

theorem region?_read_ne_comment (tracked : Tracks read progress)
    (shows : progress.hidesNext letter next = false) :
    (progress.read context letter next).within.region? ≠ some .comment := by
  rw [← (tracked.step context letter next).region_eq]
  apply (Keeps.read shows).opened_ne
  rw [tracked.region_eq]
  exact region?_ne_comment tracked shows

/-- A hidden character is a space in the code. -/
theorem hidesNext_eq_false {rest after : List Char} {head : Char} (visible : head ≠ ' ')
    (equality : shownOver context (letter :: rest) progress = head :: after) :
    progress.hidesNext letter rest.head? = false := by
  rw [Bool.eq_false_iff]
  intro hides
  obtain ⟨count, size⟩ : ∃ count, letter.utf8Size = count + 1 :=
    Nat.exists_eq_add_one.mpr letter.utf8Size_pos
  rw [shownOver, shown, hides, if_pos rfl, size, List.replicate_succ, List.cons_append] at equality
  exact visible (List.cons.inj equality).1.symm

/-- A run of the code without a space stands in the line at the same position, and its neighbours
there are those in the code or slashes of comments. -/
theorem exists_run_of_shownOver {letters before run after : List Char}
    (tracked : Tracks read progress) (closes : progress.ClosesWith letters.head?)
    (nonempty : run ≠ []) (visible : ∀ letter ∈ run, letter ≠ ' ')
    (equality : shownOver context letters progress = before ++ (run ++ after)) :
    ∃ initial final, letters = initial ++ (run ++ final) ∧
      byteLength initial = byteLength before ∧
      MeetsAs initial.getLast? before.getLast? ∧ MeetsAs final.head? after.head? := by
  induction letters generalizing read progress before run with
  | nil =>
      have noRun := (List.append_eq_nil_iff.mp (List.append_eq_nil_iff.mp equality.symm).2).1
      exact absurd noRun nonempty
  | cons letter rest inductionHypothesis =>
      have stepped := tracked.step context letter rest.head?
      have closesNext : (progress.read context letter rest.head?).ClosesWith rest.head? :=
        closesWith_read tracked
      obtain ⟨head, tail, rfl⟩ := List.exists_cons_of_ne_nil nonempty
      rw [shownOver, shown] at equality
      cases hides : progress.hidesNext letter rest.head? with
      | true =>
          rw [hides, if_pos rfl] at equality
          obtain ⟨between, rfl, restEq⟩ :=
            exists_append_of_replicate_append (visible head List.mem_cons_self) equality
          obtain ⟨initial, final, rfl, measured, meetsFront, meetsBack⟩ :=
            inductionHypothesis stepped closesNext nonempty visible restEq
          refine ⟨letter :: initial, final, rfl, ?_, ?_, meetsBack⟩
          · rw [byteLength_cons, measured, byteLength_append, byteLength_replicate,
              show ' '.utf8Size = 1 from rfl, Nat.mul_one]
          · refine @meetsAs_getLast?_append [letter] _ _ _ measured meetsFront ?_
            rintro rfl rfl
            -- the run begins with the next character, which is shown therefore
            have shows := hidesNext_eq_false (visible head List.mem_cons_self) restEq
            have slash : letter = '/' := eq_slash_of_shown closes hides shows
            obtain ⟨count, size⟩ : ∃ count, letter.utf8Size = count + 1 :=
              Nat.exists_eq_add_one.mpr letter.utf8Size_pos
            rw [size, List.replicate_succ', List.getLast?_concat, slash]
            exact .inr ⟨rfl, rfl⟩
      | false =>
          rw [hides, if_neg Bool.false_ne_true, List.singleton_append] at equality
          cases before with
          | nil =>
              obtain ⟨rfl, restEq⟩ := List.cons.inj equality
              by_cases last : tail = []
              · subst last
                have outside : (progress.read context letter rest.head?).within.region? ≠
                    some .comment := region?_read_ne_comment tracked hides
                have meets := head?_shownOver outside context rest
                rw [restEq] at meets
                exact ⟨[], rest, rfl, rfl, .refl none, meets⟩
              · have visibleTail : ∀ letter ∈ tail, letter ≠ ' ' := fun found member =>
                  visible found (List.mem_cons_of_mem letter member)
                obtain ⟨initial, final, restEq, measured, -, meetsBack⟩ :=
                  @inductionHypothesis _ _ [] tail stepped closesNext last visibleTail restEq
                obtain rfl := eq_nil_of_byteLength measured
                exact ⟨[], final, by rw [restEq]; rfl, rfl, .refl none, meetsBack⟩
          | cons first others =>
              obtain ⟨rfl, restEq⟩ := List.cons.inj equality
              obtain ⟨initial, final, rfl, measured, meetsFront, meetsBack⟩ :=
                inductionHypothesis stepped closesNext nonempty visible restEq
              refine ⟨letter :: initial, final, rfl, ?_, ?_, meetsBack⟩
              · rw [byteLength_cons, byteLength_cons, measured]
              · exact @meetsAs_getLast?_append [letter] [letter] _ _ measured meetsFront
                  fun _ _ => .refl _

end Progress

/-! ## Lines of a document -/

section Lines

variable {before run after : List Char} {line : ScannedLine}

theorem Scanner.exists_run_of_scanLine (scanner : Scanner) (index : Nat) {text : List Char}
    (nonempty : run ≠ []) (visible : ∀ letter ∈ run, letter ≠ ' ')
    (codeEq : (scanner.scanLine index text).1.code = before ++ (run ++ after)) :
    ∃ initial final, text = initial ++ (run ++ final) ∧ byteLength initial = byteLength before ∧
      MeetsAs initial.getLast? before.getLast? ∧ MeetsAs final.head? after.head? := by
  have closes : scanner.begin.ClosesWith text.head? :=
    .of_ne scanner.isSettled_begin.2
  have shown : (scanner.scanLine index text).1.code =
      Progress.shownOver ⟨index, scanner.previous⟩ text scanner.begin :=
    Progress.code_readAll _ text scanner.begin
  exact Progress.exists_run_of_shownOver scanner.tracks_begin closes nonempty visible
    (shown.symm.trans codeEq)

theorem Scanner.exists_run_of_mem (scanner : Scanner) {lines : List (Nat × List Char)}
    (member : line ∈ scanner.scanNumbered lines)
    (nonempty : run ≠ []) (visible : ∀ letter ∈ run, letter ≠ ' ')
    (codeEq : line.code = before ++ (run ++ after)) :
    ∃ initial final, line.text = initial ++ (run ++ final) ∧
      byteLength initial = byteLength before ∧
      MeetsAs initial.getLast? before.getLast? ∧ MeetsAs final.head? after.head? := by
  induction lines generalizing scanner with
  | nil => exact absurd member List.not_mem_nil
  | cons fed rest inductionHypothesis =>
      rcases List.mem_cons.mp member with rfl | later
      · exact scanner.exists_run_of_scanLine fed.1 nonempty visible codeEq
      · exact inductionHypothesis _ later

end Lines

end ScriptLint
