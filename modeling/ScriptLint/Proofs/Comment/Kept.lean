import ScriptLint.Proofs.Comment
import ScriptLint.Proofs.Text.Bytes

/-!
# What is kept of a line

Of a line with a comment one range of bytes is cut out: a line comment up to the end of the line, or
else a block up to its end. The test for positions in comments asks for both kinds at once, and does
not count the first byte of a marker. So whatever is cut out is in a comment, up to such a byte. The
converse fails as soon as a block opens before a line comment: the line comment is cut out, and the
block is kept.
-/

namespace ScriptLint

open Text

namespace Text

variable {marker letters before after front middle : List Char} {cut : Nat → Bool}
  {position : Nat}

/-! ## The first occurrence of a marker -/

theorem cutAt?_eq_none_iff : cutAt? marker letters = none ↔ ¬ marker <:+: letters := by
  induction letters with
  | nil =>
      rw [cutAt?, List.infix_nil, ← List.isEmpty_iff]
      cases marker.isEmpty with
      | true => simp
      | false => simp
  | cons letter rest inductionHypothesis =>
      rw [cutAt?, List.infix_cons_iff, not_or, ← inductionHypothesis, ← List.isPrefixOf_iff_prefix]
      by_cases here : marker.isPrefixOf (letter :: rest) = true
      · simp [here]
      · rw [if_neg here, Option.map_eq_none_iff]
        exact (and_iff_right here).symm

/-- A text that goes on is cut at the same place. -/
theorem cutAt?_append (found : cutAt? marker letters = some (before, after))
    (someMarker : marker ≠ []) (more : List Char) :
    cutAt? marker (letters ++ more) = some (before, after ++ more) := by
  induction letters generalizing before with
  | nil =>
      rw [cutAt?, if_neg (by rwa [List.isEmpty_iff])] at found
      cases found
  | cons letter rest inductionHypothesis =>
      rw [cutAt?] at found
      rw [List.cons_append, cutAt?]
      split at found
      · next here =>
          cases found
          have isPrefix := List.isPrefixOf_iff_prefix.mp here
          have stillHere : marker.isPrefixOf (letter :: (rest ++ more)) = true :=
            List.isPrefixOf_iff_prefix.mpr (isPrefix.trans (List.prefix_append _ more))
          rw [if_pos stillHere, ← List.cons_append,
            List.drop_append_of_le_length isPrefix.length_le]
      · next notHere =>
          obtain ⟨⟨halfBefore, halfAfter⟩, foundLater, same⟩ := Option.map_eq_some_iff.mp found
          cases same
          -- the marker has room in the rest, so it cannot begin here and reach into what is added
          have room : marker.length ≤ (letter :: rest).length := by
            rw [cutAt?_eq_some foundLater]
            simp only [List.length_cons, List.length_append]
            omega
          have stillNotHere : ¬ marker.isPrefixOf (letter :: (rest ++ more)) = true := by
            intro here
            apply notHere
            rw [List.isPrefixOf_iff_prefix] at here ⊢
            have fits := List.prefix_append (letter :: rest) more
            exact List.prefix_of_prefix_length_le here fits room
          rw [if_neg stillNotHere, inductionHypothesis foundLater]
          rfl

/-- A text is cut at a byte position in one way only. -/
theorem append_inj_of_byteLength {first second : List Char}
    (same : before ++ first = after ++ second)
    (measured : byteLength before = byteLength after) : before = after ∧ first = second := by
  have cutAsAfter := splitAtByte?_eq_some_iff.mpr ⟨same, measured.symm⟩
  have cutAsBefore : splitAtByte? (before ++ first) (byteLength before) = some (before, first) :=
    splitAtByte?_eq_some_iff.mpr ⟨rfl, rfl⟩
  exact Prod.mk.inj (Option.some.inj (cutAsBefore.symm.trans cutAsAfter))

/-! ## A range of bytes -/

/-- The text, which begins at a position, without the characters that begin at the positions that
are cut out. -/
def cutWhere (cut : Nat → Bool) (position : Nat) : List Char → List Char
  | [] => []
  | letter :: rest =>
      if cut position then cutWhere cut (position + letter.utf8Size) rest
      else letter :: cutWhere cut (position + letter.utf8Size) rest

theorem cutWhere_append (cut : Nat → Bool) (position : Nat) (front back : List Char) :
    cutWhere cut position (front ++ back) =
      cutWhere cut position front ++ cutWhere cut (position + byteLength front) back := by
  induction front generalizing position with
  | nil => rfl
  | cons letter rest inductionHypothesis =>
      rw [List.cons_append, cutWhere, cutWhere, inductionHypothesis, byteLength_cons, Nat.add_assoc]
      split
      · rfl
      · rfl

theorem cutWhere_eq_self (keeps : ∀ place, position ≤ place →
    place < position + byteLength letters → cut place = false) :
    cutWhere cut position letters = letters := by
  induction letters generalizing position with
  | nil => rfl
  | cons letter rest inductionHypothesis =>
      have sizePositive := letter.utf8Size_pos
      rw [byteLength_cons] at keeps
      have kept : cut position = false := keeps position (Nat.le_refl _) (by omega)
      rw [cutWhere, kept, if_neg Bool.false_ne_true, inductionHypothesis]
      exact fun place above below => keeps place (by omega) (by omega)

theorem cutWhere_eq_nil (drops : ∀ place, position ≤ place →
    place < position + byteLength letters → cut place = true) :
    cutWhere cut position letters = [] := by
  induction letters generalizing position with
  | nil => rfl
  | cons letter rest inductionHypothesis =>
      have sizePositive := letter.utf8Size_pos
      rw [byteLength_cons] at drops
      rw [cutWhere, if_pos (drops position (Nat.le_refl _) (by omega)), inductionHypothesis]
      exact fun place above below => drops place (by omega) (by omega)

/-- If the positions of the part in the middle are cut out, the parts around it are left. -/
theorem cutWhere_middle (back : List Char)
    (exactly : ∀ place, cut place = true ↔
      byteLength front ≤ place ∧ place < byteLength front + byteLength middle) :
    cutWhere cut 0 (front ++ middle ++ back) = front ++ back := by
  have outside : ∀ place, place < byteLength front ∨ byteLength front + byteLength middle ≤ place →
      cut place = false := by
    intro place beside
    rw [Bool.eq_false_iff, Ne, exactly]
    omega
  have frontKept : cutWhere cut 0 front = front :=
    cutWhere_eq_self fun place _ below => outside place (.inl (by omega))
  have middleDropped : cutWhere cut (0 + byteLength front) middle = [] :=
    cutWhere_eq_nil fun place above below => (exactly place).mpr (by omega)
  have backKept : cutWhere cut (0 + byteLength (front ++ middle)) back = back := by
    rw [byteLength_append]
    exact cutWhere_eq_self fun place above _ => outside place (.inr (by omega))
  rw [cutWhere_append, cutWhere_append, frontKept, middleDropped, backKept, List.append_nil]

end Text

namespace Comment

variable {line code rest before inside after : List Char} {letter : Char} {position : Nat}

/-- Whether a byte position of a line is cut out. -/
def isCut (line : List Char) (position : Nat) : Bool :=
  (cutRange line).1 ≤ position && position < (cutRange line).2

theorem isCut_iff : isCut line position = true ↔
    (cutRange line).1 ≤ position ∧ position < (cutRange line).2 := by
  rw [isCut, Bool.and_eq_true, decide_eq_true_eq, decide_eq_true_eq]

/-- The line without its comment is the line without what is cut out. -/
theorem uncommented_eq_cutWhere (line : List Char) :
    uncommented line = cutWhere (isCut line) 0 line := by
  obtain ⟨before, comment, after, lineEq, kept, rangeEq, _⟩ := exists_uncommented_eq line
  have exactly : ∀ place, isCut line place = true ↔
      byteLength before ≤ place ∧ place < byteLength before + byteLength comment := by
    intro place
    rw [isCut_iff, rangeEq]
  have cutOut := cutWhere_middle after exactly
  rw [← lineEq] at cutOut
  rw [kept, cutOut]

/-! ## Blocks and line comments -/

theorem cutRange_of_lineMarker (found : cutAt? lineMarker line = some (code, rest)) :
    cutRange line = (byteLength code, byteLength line) := by
  simp only [cutRange, found]

/-- A block that does not open before the line comment opens behind the start of its marker. -/
theorem byteLength_le_of_cutAt? (lineFound : cutAt? lineMarker line = some (code, rest))
    (noBlock : ¬ blockOpening <:+: code)
    (blockFound : cutAt? blockOpening line = some (before, inside)) :
    byteLength code ≤ byteLength before := by
  have shape : before ++ (blockOpening ++ inside) = code ++ (lineMarker ++ rest) := by
    rw [← List.append_assoc, ← cutAt?_eq_some blockFound, ← List.append_assoc,
      ← cutAt?_eq_some lineFound]
  rcases List.append_eq_append_iff.mp shape with
    ⟨between, codeEq, opens⟩ | ⟨between, beforeEq, _⟩
  · -- the star of the block is no slash of the marker, so the whole marker of the block is code
    match between, codeEq, opens with
    | [], codeEq, opens => simp [blockOpening, lineMarker] at opens
    | [first], codeEq, opens => simp [blockOpening, lineMarker] at opens
    | first :: second :: others, codeEq, opens =>
        refine absurd ⟨before, others, ?_⟩ noBlock
        obtain ⟨rfl, rfl⟩ : '/' = first ∧ '*' = second := by
          simp only [blockOpening, List.cons_append, List.cons.injEq] at opens
          exact ⟨opens.1, opens.2.1⟩
        rw [codeEq, List.append_assoc]
        rfl
  · rw [beforeEq, byteLength_append]
    omega

theorem isInBlockComment_eq_false
    (isBefore : ∀ before inside, cutAt? blockOpening line = some (before, inside) →
      position ≤ byteLength before) : isInBlockComment line position = false := by
  cases found : cutAt? blockOpening line with
  | none => simp only [isInBlockComment, found]
  | some halves =>
      have outside : decide (byteLength halves.1 < position) = false :=
        decide_eq_false (Nat.not_lt.mpr (isBefore halves.1 halves.2 found))
      simp only [isInBlockComment, found, outside, Bool.false_and]
      split
      · rfl
      · rfl

/-- The star of the first block is in a comment. -/
theorem isIn_star (found : cutAt? blockOpening line = some (before, inside)) :
    isIn line (byteLength before + 1) = true := by
  have behind : decide (byteLength before < byteLength before + 1) = true :=
    decide_eq_true (Nat.lt_succ_self _)
  have inBlock : isInBlockComment line (byteLength before + 1) = true := by
    simp only [isInBlockComment, found, behind, Bool.true_and]
    split
    · exact decide_eq_true (by omega)
    · rfl
  rw [isIn, inBlock, Bool.or_true, Bool.true_or]

/-- Where a marker is found, a character begins with it. -/
theorem isPrefix_of_cutAt? {marker : List Char} (found : cutAt? marker line = some (code, rest))
    (shape : line = before ++ letter :: after) (measured : byteLength before = byteLength code) :
    marker <+: letter :: after := by
  have same : before ++ letter :: after = code ++ (marker ++ rest) := by
    rw [← shape, ← List.append_assoc]
    exact cutAt?_eq_some found
  rw [(append_inj_of_byteLength same measured).2]
  exact List.prefix_append marker rest

section Unstarred

variable (noStar : ['*'].isPrefixOf (trimStart line) = false)

include noStar

theorem isIn_eq_or (position : Nat) :
    isIn line position = (isInLineComment line position || isInBlockComment line position) := by
  rw [isIn, noStar, Bool.or_false]

theorem isCut_of_isIn_lineMarker (found : cutAt? lineMarker line = some (code, rest))
    (noBlock : ¬ blockOpening <:+: code) (below : position < byteLength line)
    (inComment : isIn line position = true) : isCut line position = true := by
  rw [isCut_iff, cutRange_of_lineMarker found]
  refine ⟨?_, below⟩
  by_contra inCode
  have noLine : isInLineComment line position = false := by
    simp only [isInLineComment, found]
    exact decide_eq_false (by omega)
  have noBlockHere : isInBlockComment line position = false := by
    apply isInBlockComment_eq_false
    intro before inside blockFound
    have opensBehind := byteLength_le_of_cutAt? found noBlock blockFound
    omega
  rw [isIn_eq_or noStar, noLine, noBlockHere] at inComment
  cases inComment

theorem isCut_of_isIn_block (noLine : cutAt? lineMarker line = none)
    (below : position < byteLength line) (inComment : isIn line position = true) :
    isCut line position = true := by
  have inBlock : isInBlockComment line position = true := by
    have noLineComment : isInLineComment line position = false := by
      simp only [isInLineComment, noLine]
    rwa [isIn_eq_or noStar, noLineComment, Bool.false_or] at inComment
  rw [isCut_iff]
  cases opened : cutAt? blockOpening line with
  | none =>
      simp only [isInBlockComment, opened] at inBlock
      cases inBlock
  | some halves =>
      obtain ⟨before, inside⟩ := halves
      cases closed : cutAt? blockClosing inside with
      | none =>
          simp only [isInBlockComment, opened, closed, decide_eq_true_eq] at inBlock
          simp only [cutRange, noLine, opened, closed]
          omega
      | some parts =>
          simp only [isInBlockComment, opened, closed, Bool.and_eq_true,
            decide_eq_true_eq] at inBlock
          simp only [cutRange, noLine, opened, closed]
          omega

/-- What is cut out outside of comments is the first byte of a marker. -/
theorem isPrefix_of_isCut (shape : line = before ++ letter :: after)
    (cutOut : isCut line (byteLength before) = true)
    (outside : isIn line (byteLength before) = false) :
    lineMarker <+: letter :: after ∨ blockOpening <+: letter :: after := by
  rw [isIn_eq_or noStar, Bool.or_eq_false_iff] at outside
  obtain ⟨noLine, noBlock⟩ := outside
  rw [isCut_iff] at cutOut
  cases found : cutAt? lineMarker line with
  | some halves =>
      obtain ⟨code, rest⟩ := halves
      rw [cutRange_of_lineMarker found] at cutOut
      simp only [isInLineComment, found, decide_eq_false_iff_not] at noLine
      exact Or.inl (isPrefix_of_cutAt? found shape (by omega))
  | none =>
      cases opened : cutAt? blockOpening line with
      | none =>
          simp only [cutRange, found, opened] at cutOut
          omega
      | some halves =>
          obtain ⟨code, inside⟩ := halves
          refine Or.inr (isPrefix_of_cutAt? opened shape ?_)
          cases closed : cutAt? blockClosing inside with
          | none =>
              simp only [cutRange, found, opened, closed] at cutOut
              simp only [isInBlockComment, opened, closed, decide_eq_false_iff_not] at noBlock
              omega
          | some parts =>
              simp only [cutRange, found, opened, closed] at cutOut
              simp only [isInBlockComment, opened, closed, Bool.and_eq_false_iff,
                decide_eq_false_iff_not] at noBlock
              omega

end Unstarred

/-- Of a block before a line comment the star is kept, although it is in a comment. -/
theorem exists_kept_isIn (found : cutAt? lineMarker line = some (code, rest))
    (block : blockOpening <:+: code) :
    ∃ before letter after, line = before ++ letter :: after ∧
      isIn line (byteLength before) = true ∧ isCut line (byteLength before) = false := by
  obtain ⟨⟨before, inside⟩, blockFound⟩ :=
    Option.ne_none_iff_exists'.mp (mt cutAt?_eq_none_iff.mp (not_not.mpr block))
  have codeEq := cutAt?_eq_some blockFound
  have lineEq : line = code ++ (lineMarker ++ rest) := by
    rw [← List.append_assoc]
    exact cutAt?_eq_some found
  have foundInLine : cutAt? blockOpening line = some (before, inside ++ (lineMarker ++ rest)) := by
    rw [lineEq]
    exact cutAt?_append blockFound (List.cons_ne_nil _ _) _
  have measured : byteLength (before ++ ['/']) = byteLength before + 1 := byteLength_append _ _
  refine ⟨before ++ ['/'], '*', inside ++ (lineMarker ++ rest), ?_, ?_, ?_⟩
  · rw [lineEq, codeEq, blockOpening]
    simp only [List.append_assoc, List.cons_append, List.nil_append]
  · rw [measured]
    exact isIn_star foundInLine
  · have sizes : byteLength code = byteLength before + 2 + byteLength inside := by
      rw [codeEq, byteLength_append, byteLength_append]
      rfl
    rw [measured, Bool.eq_false_iff, Ne, isCut_iff, cutRange_of_lineMarker found]
    omega

/-- Of a line that is no continued block whatever is cut out is in a comment, up to the first byte
of a marker. All that is in comments is cut out exactly if no block opens before a line comment. -/
theorem isCut_of_isIn_iff (noStar : ['*'].isPrefixOf (trimStart line) = false) :
    uncommented line = cutWhere (isCut line) 0 line ∧
      ((∀ before letter after, line = before ++ letter :: after →
          isIn line (byteLength before) = true → isCut line (byteLength before) = true) ↔
        ∀ code rest, cutAt? lineMarker line = some (code, rest) → ¬ blockOpening <:+: code) ∧
      ∀ before letter after, line = before ++ letter :: after →
        isCut line (byteLength before) = true → isIn line (byteLength before) = false →
          lineMarker <+: letter :: after ∨ blockOpening <+: letter :: after := by
  refine ⟨uncommented_eq_cutWhere line, ⟨?keepsNone, ?cutsAll⟩, ?marker⟩
  case keepsNone =>
    intro cutsAll code rest found block
    obtain ⟨before, letter, after, shape, inComment, kept⟩ := exists_kept_isIn found block
    rw [cutsAll before letter after shape inComment] at kept
    cases kept
  case cutsAll =>
    intro noBlock before letter after shape inComment
    have below : byteLength before < byteLength line := by
      have sizePositive := letter.utf8Size_pos
      rw [shape, byteLength_append, byteLength_cons]
      omega
    cases found : cutAt? lineMarker line with
    | some halves =>
        have opensNone := noBlock halves.1 halves.2 found
        exact isCut_of_isIn_lineMarker noStar found opensNone below inComment
    | none => exact isCut_of_isIn_block noStar found below inComment
  case marker =>
    exact fun _ _ _ shape cutOut outside => isPrefix_of_isCut noStar shape cutOut outside

/-- A block that opens in a line comment does not matter. -/
theorem isCut_of_isIn_iff_call :
    let line := "go(now); // soon /* or later".toList
    ['*'].isPrefixOf (trimStart line) = false ∧ uncommented line = "go(now); ".toList ∧
      ∀ before letter after, line = before ++ letter :: after →
        isIn line (byteLength before) = true → isCut line (byteLength before) = true := by
  intro line
  have noStar : ['*'].isPrefixOf (trimStart line) = false := rfl
  have agree := (isCut_of_isIn_iff noStar).2.1
  refine ⟨noStar, rfl, agree.mpr ?_⟩
  intro code rest found
  have cut : cutAt? lineMarker line = some ("go(now); ".toList, " soon /* or later".toList) :=
    rfl
  rw [cut] at found
  cases found
  decide +kernel

/-- The block between a call and a line comment stays in the code of the line. -/
theorem uncommented_keepsBlock :
    let line := "go(); /* now */ // soon".toList
    let before := "go(); /* ".toList
    ['*'].isPrefixOf (trimStart line) = false ∧ Comment.code line = "go(); /* now */".toList ∧
      line = before ++ 'n' :: "ow */ // soon".toList ∧ isCut line (byteLength before) = false ∧
      isIn line (byteLength before) = true :=
  ⟨rfl, rfl, rfl, rfl, rfl⟩

end Comment

end ScriptLint
