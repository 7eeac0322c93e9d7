import ScriptLint.Proofs.Text.Extension
import ScriptLint.Proofs.Text.MatchOrder

/-!
# Text in front

A text is put in front of another one, and its last character is no word character. A pattern that
does not ask for the start of the text finds behind the front what it found in the text alone, as
many bytes later. A search of the whole finds first what begins in the front. The last match that
begins there may end behind the front, and then the search of the rest begins where it ends.
-/

namespace ScriptLint.Text

variable {front : List Char}

/-- The place in the text behind the front. -/
def Place.behind (front : List Char) (place : Place) : Place :=
  ⟨place.before.or front.getLast?, place.position + byteLength front, place.rest⟩

/-- The span in the text behind the front. -/
def Span.behind (front : List Char) (span : Span) : Span :=
  { span with start := span.start + byteLength front, stop := span.stop + byteLength front }

/-- The groups in the text behind the front. -/
def groupsBehind (front : List Char) (groups : List (Nat × Span)) : List (Nat × Span) :=
  groups.map fun entry => (entry.1, entry.2.behind front)

/-- The match in the text behind the front. -/
def Match.behind (front : List Char) (found : Match) : Match :=
  ⟨found.whole.behind front, groupsBehind front found.groups⟩

theorem Match.group?_behind (found : Match) (number : Nat) :
    (found.behind front).group? number = (found.group? number).map (Span.behind front) := by
  rw [group?, group?, behind, groupsBehind, List.find?_map, Option.map_map, Option.map_map]
  rfl

namespace Place

theorem behind_after (place : Place) (letter : Char) (rest : List Char) :
    (place.after letter rest).behind front = (place.behind front).after letter rest := by
  simp only [behind, after, Option.some_or, Nat.add_right_comm]

theorem spanTo_behind (start stop : Place) :
    (start.behind front).spanTo (stop.behind front) = (start.spanTo stop).behind front := by
  simp only [spanTo, Span.behind, behind, Nat.add_sub_add_right]

/-- At its start the text has the edges that it has alone, because the front ends with no word
character. -/
theorem isWordEdge_behind (noWord : front.getLast?.any isWord = false) (place : Place) :
    (place.behind front).isWordEdge = place.isWordEdge := by
  obtain ⟨before, position, rest⟩ := place
  cases before with
  | none => simp only [isWordEdge, behind, Option.none_or, noWord, Option.any_none]
  | some letter => rfl

end Place

namespace Reached

/-- The partial match in the text behind the front. -/
def behind (front : List Char) (reached : Reached) : Reached :=
  ⟨reached.place.behind front, groupsBehind front reached.groups⟩

theorem isBeyond_behind (next reached : Reached) :
    (next.behind front).isBeyond (reached.behind front) = next.isBeyond reached := by
  have shifted : (reached.place.position + byteLength front <
      next.place.position + byteLength front) ↔ reached.place.position < next.place.position :=
    Nat.add_lt_add_iff_right
  exact decide_eq_decide.mpr shifted

theorem keepNew_behind (origin : Nat) (others : List Reached) (seen : Nat) :
    (keepNew (origin + byteLength front) (others.map (behind front)) seen).1 =
      (keepNew origin others seen).1.map (behind front) := by
  induction others generalizing seen with
  | nil => rfl
  | cons first rest inductionHypothesis =>
      have sameDistance : (first.behind front).place.position - (origin + byteLength front) =
          first.place.position - origin := Nat.add_sub_add_right _ _ _
      simp only [List.map_cons, keepNew, sameDistance]
      split
      · exact inductionHypothesis seen
      · rw [List.map_cons, inductionHypothesis]

theorem filter_isBeyond_behind (others : List Reached) (reached : Reached) :
    (others.map (behind front)).filter (·.isBeyond (reached.behind front)) =
      (others.filter (·.isBeyond reached)).map (behind front) := by
  rw [List.filter_map]
  exact congrArg _ (List.filter_congr fun next _ => isBeyond_behind next reached)

/-- Repetitions of a step that leads to the same ends behind the front lead to the same ends, if
both counts allow for all characters that are left. -/
theorem repetition_behind {step stepBehind : Reached → List Reached}
    (assemble : Reached → List Reached → List Reached)
    (repetition repetitionBehind : Nat → Reached → List Reached)
    (zero : ∀ reached, repetition 0 reached = assemble reached [])
    (zeroBehind : ∀ reached, repetitionBehind 0 reached = assemble reached [])
    (succ : ∀ count reached, repetition (count + 1) reached =
      assemble reached (((step reached).filter (·.isBeyond reached)).flatMap (repetition count)))
    (succBehind : ∀ count reached, repetitionBehind (count + 1) reached =
      assemble reached
        (((stepBehind reached).filter (·.isBeyond reached)).flatMap (repetitionBehind count)))
    (assembles : ∀ reached others, assemble (reached.behind front) (others.map (behind front)) =
      (assemble reached others).map (behind front))
    {limit : Nat}
    (steps : ∀ reached : Reached, reached.place.rest.length ≤ limit →
      stepBehind (reached.behind front) = (step reached).map (behind front))
    (shorter : ∀ reached, ∀ next ∈ step reached, next.isBeyond reached = true →
      next.place.rest.length < reached.place.rest.length)
    {count countBehind : Nat} {reached : Reached} (bounded : reached.place.rest.length ≤ limit)
    (enough : reached.place.rest.length ≤ count)
    (enoughBehind : reached.place.rest.length ≤ countBehind) :
    repetitionBehind countBehind (reached.behind front) =
      (repetition count reached).map (behind front) := by
  have ahead : ∀ reached : Reached, reached.place.rest.length ≤ limit →
      (stepBehind (reached.behind front)).filter (·.isBeyond (reached.behind front)) =
        ((step reached).filter (·.isBeyond reached)).map (behind front) := by
    intro reached bounded
    rw [steps reached bounded, filter_isBeyond_behind]
  -- where no character is left there is no further step, so a count of zero does not matter
  have stops : ∀ reached : Reached, reached.place.rest.length = 0 →
      (step reached).filter (·.isBeyond reached) = [] := by
    intro reached noRest
    rw [List.filter_eq_nil_iff]
    intro next member beyond
    have less := shorter reached next member beyond
    omega
  induction count generalizing reached countBehind with
  | zero =>
      have nothing := stops reached (by omega)
      have assembled : repetitionBehind countBehind (reached.behind front) =
          assemble (reached.behind front) [] := by
        cases countBehind with
        | zero => exact zeroBehind _
        | succ countBehind =>
            rw [succBehind, ahead reached bounded, nothing, List.map_nil, List.flatMap_nil]
      rw [assembled, zero, ← assembles, List.map_nil]
  | succ count inductionHypothesis =>
      rw [succ, ← assembles]
      cases countBehind with
      | zero => rw [zeroBehind, stops reached (by omega), List.flatMap_nil, List.map_nil]
      | succ countBehind =>
          rw [succBehind, ahead reached bounded, List.flatMap_map, List.map_flatMap]
          refine congrArg _ (List.flatMap_congr fun next member => ?_)
          obtain ⟨isStep, beyond⟩ := List.mem_filter.mp member
          have less := shorter reached next isStep beyond
          exact inductionHypothesis (by omega) (by omega) (by omega)

end Reached

namespace Pattern

variable {pattern : Pattern} {reached next : Reached} {limit longer : Nat}

/-- Whether the pattern asks for the start of the text. -/
def asksForStart : Pattern → Bool
  | atStart => true
  | sequence first second | choice first second => first.asksForStart || second.asksForStart
  | many body | few body | group _ body => body.asksForStart
  | empty | one _ | atEnd | atWordEdge => false

/-- Behind the front the pattern has the ends that it has in the text alone. -/
theorem ends_behind (noWord : front.getLast?.any isWord = false)
    (noStart : pattern.asksForStart = false) (bounded : reached.place.rest.length ≤ limit)
    (boundedBehind : reached.place.rest.length ≤ longer) :
    ends longer pattern (reached.behind front) =
      (ends limit pattern reached).map (Reached.behind front) := by
  induction pattern generalizing reached with
  | empty => rfl
  | one accepts =>
      have sameRest : (reached.behind front).place.rest = reached.place.rest := rfl
      rw [ends, ends, sameRest]
      cases reached.place.rest with
      | nil => rfl
      | cons letter rest =>
          simp only
          split
          · simp only [List.map_cons, List.map_nil, Reached.behind, Place.behind_after]
          · rfl
  | sequence first second firstHypothesis secondHypothesis =>
      rw [asksForStart, Bool.or_eq_false_iff] at noStart
      have origin : (reached.behind front).place.position =
          reached.place.position + byteLength front := rfl
      rw [ends, ends, Reached.advance_eq_keepNew, Reached.advance_eq_keepNew, origin,
        firstHypothesis noStart.1 bounded boundedBehind, ← Reached.keepNew_behind,
        List.flatMap_map, List.map_flatMap]
      refine congrArg (fun others => (Reached.keepNew _ others 0).1)
        (List.flatMap_congr fun start member => ?_)
      have shorter := (runs_of_mem_ends member).length_rest_le
      exact secondHypothesis noStart.2 (by omega) (by omega)
  | choice preferred other preferredHypothesis otherHypothesis =>
      rw [asksForStart, Bool.or_eq_false_iff] at noStart
      rw [ends, ends, preferredHypothesis noStart.1 bounded boundedBehind,
        otherHypothesis noStart.2 bounded boundedBehind, List.map_append]
  | many body bodyHypothesis =>
      exact Reached.repetition_behind (fun reached others => others ++ [reached])
        (fun count reached => Reached.repeatMany _ count reached [])
        (fun count reached => Reached.repeatMany _ count reached [])
        (fun _ => rfl) (fun _ => rfl) Reached.repeatMany_succ Reached.repeatMany_succ
        (fun reached others => (@List.map_append _ _ (Reached.behind front) others [reached]).symm)
        (fun _ within => bodyHypothesis noStart (Nat.le_trans within bounded)
          (Nat.le_trans within boundedBehind))
        (fun _ _ member => (runs_of_mem_ends member).length_rest_lt) (Nat.le_refl _) bounded
        boundedBehind
  | few body bodyHypothesis =>
      exact Reached.repetition_behind (fun reached others => reached :: others)
        (fun count reached => Reached.repeatFew _ count reached [])
        (fun count reached => Reached.repeatFew _ count reached [])
        (fun _ => rfl) (fun _ => rfl) Reached.repeatFew_succ Reached.repeatFew_succ
        (fun _ _ => List.map_cons.symm)
        (fun _ within => bodyHypothesis noStart (Nat.le_trans within bounded)
          (Nat.le_trans within boundedBehind))
        (fun _ _ member => (runs_of_mem_ends member).length_rest_lt) (Nat.le_refl _) bounded
        boundedBehind
  | group number body bodyHypothesis =>
      rw [ends, ends, bodyHypothesis noStart bounded boundedBehind, List.map_map, List.map_map]
      refine List.map_congr_left fun next _ => ?_
      simp only [Function.comp_apply, Reached.behind, Place.spanTo_behind]
      rfl
  | atStart => cases noStart
  | atEnd =>
      have sameRest : (reached.behind front).place.rest = reached.place.rest := rfl
      rw [ends, ends, sameRest]
      split <;> rfl
  | atWordEdge =>
      have sameEdge : (reached.behind front).place.isWordEdge = reached.place.isWordEdge :=
        reached.place.isWordEdge_behind noWord
      rw [ends, ends, sameEdge]
      split <;> rfl

/-! ## Searches -/

section Searches

variable (noWord : front.getLast?.any isWord = false) (noStart : pattern.asksForStart = false)

include noWord noStart in
theorem matchAt?_behind (place : Place) (bounded : place.rest.length ≤ limit)
    (boundedBehind : place.rest.length ≤ longer) :
    matchAt? pattern longer (place.behind front) =
      (matchAt? pattern limit place).map (Match.behind front) := by
  have sameEnds := @ends_behind front pattern ⟨place, []⟩ limit longer noWord noStart bounded
    boundedBehind
  have start : (⟨place, []⟩ : Reached).behind front = ⟨place.behind front, []⟩ := rfl
  rw [start] at sameEnds
  rw [matchAt?, matchAt?, sameEnds, List.head?_map, Option.map_map, Option.map_map]
  refine congrArg (fun record => Option.map record _) (funext fun reached => ?_)
  simp only [Function.comp_apply, Reached.behind, Place.spanTo_behind]
  rfl

include noWord noStart in
/-- Behind the front a search finds what it finds in the text alone, from the same character on. -/
theorem searchAllFrom_behind {free position : Nat} {before : Option Char} {rest : List Char}
    (bounded : rest.length ≤ limit) (boundedBehind : rest.length ≤ longer) :
    searchAllFrom pattern longer free (before.or front.getLast?) (position + byteLength front) rest =
      (searchAllFrom pattern limit (free - byteLength front) before position rest).map
        (Match.behind front) := by
  have isFree : ∀ free position, free ≤ position + byteLength front ↔
      free - byteLength front ≤ position := fun _ _ => Nat.sub_le_iff_le_add.symm
  induction rest generalizing free position before with
  | nil =>
      have here : matchAt? pattern longer ⟨before.or front.getLast?, position + byteLength front, []⟩ =
          (matchAt? pattern limit ⟨before, position, []⟩).map (Match.behind front) :=
        matchAt?_behind noWord noStart ⟨before, position, []⟩ bounded boundedBehind
      rw [searchAllFrom, searchAllFrom, here]
      simp only [isFree]
      split
      · cases matchAt? pattern limit ⟨before, position, []⟩ <;> rfl
      · rfl
  | cons letter rest inductionHypothesis =>
      have here : matchAt? pattern longer
          ⟨before.or front.getLast?, position + byteLength front, letter :: rest⟩ =
            (matchAt? pattern limit ⟨before, position, letter :: rest⟩).map (Match.behind front) :=
        matchAt?_behind noWord noStart ⟨before, position, letter :: rest⟩ bounded boundedBehind
      have later : ∀ free, searchAllFrom pattern longer free (some letter)
          (position + byteLength front + letter.utf8Size) rest =
            (searchAllFrom pattern limit (free - byteLength front) (some letter)
              (position + letter.utf8Size) rest).map (Match.behind front) := by
        intro free
        rw [Nat.add_right_comm]
        exact @inductionHypothesis free (position + letter.utf8Size) (some letter)
          (Nat.le_of_succ_le bounded) (Nat.le_of_succ_le boundedBehind)
      rw [searchAllFrom, searchAllFrom, here]
      simp only [isFree, later]
      split
      · cases matchAt? pattern limit ⟨before, position, letter :: rest⟩ with
        | none => rfl
        | some found =>
            have stopEq : (found.behind front).whole.stop = found.whole.stop + byteLength front := rfl
            simp only [Option.map_some, List.map_cons, stopEq, Nat.add_lt_add_iff_right]
            have sameFree : (if position < found.whole.stop then found.whole.stop + byteLength front
                else position + byteLength front + 1) - byteLength front =
                  if position < found.whole.stop then found.whole.stop else position + 1 := by
              split <;> omega
            rw [sameFree]
      · rfl

end Searches

/-! ## What begins in the front -/

/-- The matches of the whole text that begin in the front. -/
def matchesIn (pattern : Pattern) (front letters : List Char) : List Match :=
  (pattern.searchAll (front ++ letters)).filter fun found => found.whole.start < byteLength front

/-- The number of bytes behind the front that belong to the last match that begins in it. -/
def overhang (pattern : Pattern) (front letters : List Char) : Nat :=
  ((matchesIn pattern front letters).getLast?.elim 0 fun found => found.whole.stop) -
    byteLength front

/-- A search passes the front and goes on in the rest, at the earliest behind the last match that
begins in the front. -/
theorem exists_searchAllFrom_append {free position : Nat} {before : Option Char}
    (letters rest : List Char) :
    ∃ found later, searchAllFrom pattern limit free before position (letters ++ rest) =
        found ++ searchAllFrom pattern limit later (letters.getLast?.or before)
          (position + byteLength letters) rest ∧
      (∀ entry ∈ found, entry.whole.start < position + byteLength letters) ∧
      later - (position + byteLength letters) =
        (found.getLast?.elim free fun entry => entry.whole.stop) -
          (position + byteLength letters) := by
  induction letters generalizing free position before with
  | nil => exact ⟨[], free, rfl, nofun, rfl⟩
  | cons letter letters inductionHypothesis =>
      have sameLast : (letter :: letters).getLast?.or before = letters.getLast?.or (some letter) := by
        rw [List.getLast?_cons]
        cases letters.getLast? <;> rfl
      have stop : position + letter.utf8Size + byteLength letters =
          position + byteLength (letter :: letters) := by
        rw [byteLength_cons, Nat.add_assoc]
      have further := letter.utf8Size_pos
      rw [sameLast, ← stop, List.cons_append, searchAllFrom]
      split
      · split
        · next first matched =>
            obtain ⟨found, later, shape, starts, reaches⟩ := @inductionHypothesis
              (if position < first.whole.stop then first.whole.stop else position + 1)
              (position + letter.utf8Size) (some letter)
            refine ⟨first :: found, later, ?_, ?_, ?_⟩
            · rw [shape]
              rfl
            · refine List.forall_mem_cons.mpr ⟨?_, starts⟩
              have startEq : first.whole.start = position := start_of_matchAt? matched
              omega
            · rw [reaches, List.getLast?_cons]
              cases found.getLast? with
              | some last => rfl
              | none =>
                  simp only [Option.elim_none, Option.getD_none, Option.elim_some]
                  split <;> omega
        · obtain ⟨found, later, shape, starts, reaches⟩ := @inductionHypothesis free
            (position + letter.utf8Size) (some letter)
          exact ⟨found, later, shape, starts, reaches⟩
      · obtain ⟨found, later, shape, starts, reaches⟩ := @inductionHypothesis free
          (position + letter.utf8Size) (some letter)
        exact ⟨found, later, shape, starts, reaches⟩

/-- The matches of a text behind a front are those that begin in the front and, behind the part of
the text that belongs to the last of them, those of the text alone. -/
theorem searchAll_append_behind (noWord : front.getLast?.any isWord = false)
    (noStart : pattern.asksForStart = false) (letters : List Char) :
    pattern.searchAll (front ++ letters) = matchesIn pattern front letters ++
      (searchAllFrom pattern letters.length (overhang pattern front letters) none 0 letters).map
        (Match.behind front) := by
  obtain ⟨found, later, shape, starts, reaches⟩ := @exists_searchAllFrom_append pattern
    (front ++ letters).length 0 0 none front letters
  have searched : pattern.searchAll (front ++ letters) = found ++
      searchAllFrom pattern (front ++ letters).length later (front.getLast?.or none)
        (0 + byteLength front) letters := shape
  have noneInRest : ∀ entry ∈ searchAllFrom pattern (front ++ letters).length later
      (front.getLast?.or none) (0 + byteLength front) letters,
        ¬ decide (entry.whole.start < byteLength front) = true := by
    intro entry member
    have behindFront := (le_start_of_mem_searchAllFrom member).2
    rw [decide_eq_true_eq]
    omega
  have allInFront : ∀ entry ∈ found, decide (entry.whole.start < byteLength front) = true := by
    intro entry member
    have inFront := starts entry member
    rw [decide_eq_true_eq]
    omega
  have foundEq : matchesIn pattern front letters = found := by
    rw [matchesIn, searched, List.filter_append, List.filter_eq_self.mpr allInFront,
      List.filter_eq_nil_iff.mpr noneInRest, List.append_nil]
  have laterEq : later - byteLength front = overhang pattern front letters := by
    rw [overhang, foundEq]
    simpa only [Nat.zero_add] using reaches
  have within : letters.length ≤ (front ++ letters).length := by
    rw [List.length_append]
    exact Nat.le_add_left _ _
  have moved := @searchAllFrom_behind front pattern letters.length (front ++ letters).length noWord
    noStart later 0 none letters (Nat.le_refl _) within
  rw [laterEq] at moved
  rw [foundEq, searched, Option.or_none]
  exact congrArg (found ++ ·) moved

end Pattern

end ScriptLint.Text
