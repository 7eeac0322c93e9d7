import ScriptLint.Proofs.Text.Bytes

/-!
# Blanked texts

Blanking replaces each character that begins at a hidden position by as many spaces as it has bytes.
The result has the byte length of the text, and whatever is no space in it stands in the text at the
same byte position. Byte for byte the two texts differ in the hidden positions only, provided that a
character is hidden as a whole or not at all.
-/

namespace ScriptLint.Text

/-- The text, which begins at the given position, with its hidden characters replaced by spaces. -/
def blankWhere (hidden : Nat → Bool) (position : Nat) : List Char → List Char
  | [] => []
  | letter :: rest =>
      (if hidden position then List.replicate letter.utf8Size ' ' else [letter]) ++
        blankWhere hidden (position + letter.utf8Size) rest

theorem blankWhere_append (hidden : Nat → Bool) (position : Nat) (first second : List Char) :
    blankWhere hidden position (first ++ second) =
      blankWhere hidden position first ++
        blankWhere hidden (position + byteLength first) second := by
  induction first generalizing position with
  | nil => simp [blankWhere]
  | cons letter rest inductionHypothesis =>
      simp only [List.cons_append, blankWhere, inductionHypothesis, byteLength_cons,
        List.append_assoc, Nat.add_assoc]

/-- Blanking looks at the positions of the text alone. -/
theorem blankWhere_congr {hidden other : Nat → Bool} {position : Nat} {letters : List Char}
    (same : ∀ place, position ≤ place → place < position + byteLength letters →
      hidden place = other place) :
    blankWhere hidden position letters = blankWhere other position letters := by
  induction letters generalizing position with
  | nil => rfl
  | cons letter rest inductionHypothesis =>
      have sizePositive := letter.utf8Size_pos
      rw [byteLength_cons] at same
      have sameHere : hidden position = other position :=
        same position (Nat.le_refl _) (by omega)
      have sameRest :
          blankWhere hidden (position + letter.utf8Size) rest =
            blankWhere other (position + letter.utf8Size) rest := by
        apply inductionHypothesis
        intro place above below
        exact same place (by omega) (by omega)
      rw [blankWhere, blankWhere, sameHere, sameRest]

theorem byteLength_blankWhere (hidden : Nat → Bool) (position : Nat) (letters : List Char) :
    byteLength (blankWhere hidden position letters) = byteLength letters := by
  induction letters generalizing position with
  | nil => rfl
  | cons letter rest inductionHypothesis =>
      rw [blankWhere, byteLength_append, inductionHypothesis, byteLength_cons]
      split
      · rw [byteLength_replicate, show ' '.utf8Size = 1 from rfl, Nat.mul_one]
      · rw [byteLength_cons, byteLength_nil, Nat.add_zero]

/-! ## What stays visible -/

/-- A letter that is no space stands behind all the spaces at the start of a text. -/
theorem exists_append_of_replicate_append {count : Nat} {tail before after : List Char}
    {letter : Char} (visible : letter ≠ ' ')
    (equality : List.replicate count ' ' ++ tail = before ++ letter :: after) :
    ∃ between, before = List.replicate count ' ' ++ between ∧ tail = between ++ letter :: after := by
  induction count generalizing before with
  | zero => exact ⟨before, rfl, by simpa using equality⟩
  | succ count inductionHypothesis =>
      rw [List.replicate_succ, List.cons_append] at equality
      cases before with
      | nil =>
          exact absurd (List.cons.inj equality).1.symm visible
      | cons first others =>
          obtain ⟨firstEq, othersEq⟩ := List.cons.inj equality
          obtain ⟨between, shape, tailEq⟩ := inductionHypothesis othersEq
          exact ⟨between, by rw [List.replicate_succ, List.cons_append, ← shape, firstEq], tailEq⟩

/-- A letter of the blanked text that is no space is a letter of the text at the same position, and
what follows it is the blanked rest of the text. -/
theorem exists_letter_of_blankWhere {hidden : Nat → Bool} {position : Nat}
    {letters before after : List Char} {letter : Char} (visible : letter ≠ ' ')
    (equality : blankWhere hidden position letters = before ++ letter :: after) :
    ∃ initial final, letters = initial ++ letter :: final ∧
      byteLength initial = byteLength before ∧
      blankWhere hidden (position + byteLength before + letter.utf8Size) final = after := by
  induction letters generalizing position before with
  | nil => simp [blankWhere] at equality
  | cons first rest inductionHypothesis =>
      rw [blankWhere] at equality
      by_cases isHidden : hidden position = true
      · rw [if_pos isHidden] at equality
        obtain ⟨between, beforeEq, tailEq⟩ := exists_append_of_replicate_append visible equality
        obtain ⟨initial, final, restEq, measured, remainder⟩ := inductionHypothesis tailEq
        have beforeMeasured : byteLength before = first.utf8Size + byteLength between := by
          rw [beforeEq, byteLength_append, byteLength_replicate,
            show ' '.utf8Size = 1 from rfl, Nat.mul_one]
        refine ⟨first :: initial, final, by rw [restEq]; rfl, ?_, ?_⟩
        · rw [byteLength_cons, measured, beforeMeasured]
        · rw [beforeMeasured, ← Nat.add_assoc]
          exact remainder
      · rw [if_neg isHidden, List.singleton_append] at equality
        cases before with
        | nil =>
            obtain ⟨rfl, restEq⟩ := List.cons.inj equality
            exact ⟨[], rest, rfl, rfl, restEq⟩
        | cons head others =>
            obtain ⟨rfl, restEq⟩ := List.cons.inj equality
            obtain ⟨initial, final, shape, measured, remainder⟩ := inductionHypothesis restEq
            refine ⟨first :: initial, final, by rw [shape]; rfl, ?_, ?_⟩
            · rw [byteLength_cons, byteLength_cons, measured]
            · rw [byteLength_cons, ← Nat.add_assoc]
              exact remainder

/-- A run of the blanked text without a space is a run of the text at the same position. -/
theorem exists_run_of_blankWhere {hidden : Nat → Bool} {position : Nat}
    {letters before run after : List Char} (nonempty : run ≠ [])
    (visible : ∀ letter ∈ run, letter ≠ ' ')
    (equality : blankWhere hidden position letters = before ++ run ++ after) :
    ∃ initial final, letters = initial ++ run ++ final ∧
      byteLength initial = byteLength before := by
  induction run generalizing position letters before with
  | nil => exact absurd rfl nonempty
  | cons head tail inductionHypothesis =>
      rw [List.append_assoc, List.cons_append] at equality
      obtain ⟨initial, final, lettersEq, measured, remainder⟩ :=
        exists_letter_of_blankWhere (visible head (List.mem_cons_self)) equality
      cases tail with
      | nil =>
          exact ⟨initial, final, by rw [lettersEq, List.append_assoc]; rfl, measured⟩
      | cons next others =>
          have tailVisible : ∀ letter ∈ next :: others, letter ≠ ' ' :=
            fun letter member => visible letter (List.mem_cons_of_mem _ member)
          obtain ⟨between, last, finalEq, betweenMeasured⟩ :=
            inductionHypothesis (List.cons_ne_nil _ _) tailVisible
              (remainder.trans (show _ = [] ++ (next :: others) ++ after from rfl))
          -- the next letter follows at once, because nothing in between has a byte
          have betweenEmpty : between = [] := by
            have shortest := length_le_byteLength between
            rw [betweenMeasured, byteLength_nil] at shortest
            exact List.eq_nil_of_length_eq_zero (by omega)
          refine ⟨initial, last, ?_, measured⟩
          rw [lettersEq, finalEq, betweenEmpty]
          simp

/-- The blanked text is white space exactly if every character that is not hidden is. -/
theorem forall_isSpace_blankWhere {hidden : Nat → Bool} {position : Nat} {letters : List Char} :
    (∀ letter ∈ blankWhere hidden position letters, isSpace letter) ↔
      ∀ before letter after, letters = before ++ letter :: after →
        hidden (position + byteLength before) = false → isSpace letter := by
  induction letters generalizing position with
  | nil => simp [blankWhere]
  | cons first rest inductionHypothesis =>
      have headSpaces :
          (∀ letter ∈ (if hidden position then List.replicate first.utf8Size ' ' else [first]),
            isSpace letter) ↔ (hidden position = false → isSpace first) := by
        by_cases isHidden : hidden position = true
        · simp only [isHidden, if_true, List.mem_replicate]
          constructor
          · intro _ impossible
            cases impossible
          · rintro _ letter ⟨_, rfl⟩
            rfl
        · simp [isHidden]
      simp only [blankWhere, List.mem_append]
      constructor
      · intro spaces before letter after equality shown
        cases before with
        | nil =>
            obtain ⟨rfl, rfl⟩ := List.cons.inj equality
            exact headSpaces.mp (fun letter member => spaces letter (Or.inl member)) shown
        | cons head others =>
            obtain ⟨rfl, restEq⟩ := List.cons.inj equality
            apply inductionHypothesis.mp (fun letter member => spaces letter (Or.inr member))
              others letter after restEq
            rwa [byteLength_cons, ← Nat.add_assoc] at shown
      · rintro visible letter (inHead | inRest)
        · exact headSpaces.mpr (visible [] first rest rfl) letter inHead
        · refine inductionHypothesis.mpr ?_ letter inRest
          intro before found after restEq shown
          apply visible (first :: before) found after (by rw [restEq]; rfl)
          rwa [byteLength_cons, ← Nat.add_assoc]

/-! ## Byte for byte -/

/-- If characters are hidden as a whole or not at all, a byte of the blanked text is a space at a
hidden position and the byte of the text elsewhere. -/
theorem getElem?_utf8_blankWhere {hidden : Nat → Bool} {position : Nat} {letters : List Char}
    (whole : ∀ before letter after, letters = before ++ letter :: after →
      ∀ offset < letter.utf8Size,
        hidden (position + byteLength before + offset) = hidden (position + byteLength before))
    {index : Nat} (inside : index < byteLength letters) :
    (utf8 (blankWhere hidden position letters))[index]? =
      if hidden (position + index) then some 0x20 else (utf8 letters)[index]? := by
  induction letters generalizing position index with
  | nil => simp at inside
  | cons letter rest inductionHypothesis =>
      have spaceBytes :
          utf8 (List.replicate letter.utf8Size ' ') =
            List.replicate letter.utf8Size 0x20 := by
        generalize letter.utf8Size = count
        induction count with
        | zero => rfl
        | succ count countHypothesis =>
            rw [List.replicate_succ, utf8_cons, countHypothesis]
            rfl
      have pieceLength :
          (utf8 (if hidden position then List.replicate letter.utf8Size ' '
            else [letter])).length = letter.utf8Size := by
        rw [length_utf8]
        split <;> simp [byteLength_replicate, show ' '.utf8Size = 1 from rfl]
      rw [blankWhere, utf8_append, utf8_cons]
      by_cases inFirst : index < letter.utf8Size
      · have sameAsStart : hidden (position + index) = hidden position := by
          simpa using whole [] letter rest rfl index inFirst
        rw [List.getElem?_append_left (by omega),
          List.getElem?_append_left (by rw [String.length_utf8EncodeChar]; exact inFirst),
          sameAsStart]
        split
        · rw [spaceBytes, List.getElem?_replicate_of_lt inFirst]
        · simp
      · have later : ∀ before found after, rest = before ++ found :: after →
            ∀ offset < found.utf8Size,
              hidden (position + letter.utf8Size + byteLength before + offset) =
                hidden (position + letter.utf8Size + byteLength before) := by
          intro before found after restEq offset small
          have shifted := whole (letter :: before) found after (by rw [restEq]; rfl) offset small
          simpa [Nat.add_assoc] using shifted
        have insideRest : index - letter.utf8Size < byteLength rest := by
          rw [byteLength_cons] at inside
          omega
        rw [List.getElem?_append_right (by omega),
          List.getElem?_append_right (by rw [String.length_utf8EncodeChar]; omega), pieceLength,
          String.length_utf8EncodeChar, inductionHypothesis later insideRest,
          show position + letter.utf8Size + (index - letter.utf8Size) = position + index by omega]

end ScriptLint.Text
