import ScriptLint.Proofs.Text.Fits
import ScriptLint.Proofs.Text.Trim

/-!
# Words at the start and inside of a text

A run of characters of one class that ends where the class ends is determined by the text behind its
start. So a pattern that asks for a whole word finds a whole word of the text.
-/

namespace ScriptLint.Text

variable {test : Char → Bool} {word other rest further : List Char}

/-- The first character, if there is one, is none of the class. -/
def EndsClass (test : Char → Bool) (letters : List Char) : Prop :=
  letters.head?.any test = false

theorem endsClass_nil : EndsClass test [] := rfl

theorem endsClass_cons {letter : Char} (outside : test letter = false) (letters : List Char) :
    EndsClass test (letter :: letters) := by
  rw [EndsClass, List.head?_cons, Option.any_some]
  exact outside

theorem EndsClass.mono {smaller : Char → Bool} (ends : EndsClass test rest)
    (smallerThan : ∀ letter, smaller letter = true → test letter = true) :
    EndsClass smaller rest := by
  cases rest with
  | nil => exact endsClass_nil
  | cons letter others =>
      refine endsClass_cons ?_ others
      rw [Bool.eq_false_iff]
      intro inside
      exact absurd (smallerThan letter inside) (Bool.eq_false_iff.mp ends)

theorem takeWhile_of_endsClass (inside : ∀ letter ∈ word, test letter = true)
    (ends : EndsClass test rest) : (word ++ rest).takeWhile test = word := by
  have nothing : rest.takeWhile test = [] := by
    cases rest with
    | nil => rfl
    | cons letter others => exact List.takeWhile_cons_of_neg (by simpa [EndsClass] using ends)
  rw [List.takeWhile_append_of_pos inside, nothing, List.append_nil]

/-- Two runs of a class at the start of one text are the same. -/
theorem eq_of_endsClass (inside : ∀ letter ∈ word, test letter = true)
    (ends : EndsClass test rest) (insideOther : ∀ letter ∈ other, test letter = true)
    (endsOther : EndsClass test further) (same : word ++ rest = other ++ further) :
    word = other ∧ rest = further := by
  have sameWord : word = other := by
    rw [← takeWhile_of_endsClass inside ends, same, takeWhile_of_endsClass insideOther endsOther]
  subst sameWord
  exact ⟨rfl, List.append_cancel_left same⟩

/-- A character that is none of the class comes behind a run of the class. -/
theorem exists_append_of_inside (inside : ∀ letter ∈ word, test letter = true) {letter : Char}
    {before after : List Char} (outside : test letter = false)
    (same : word ++ rest = before ++ letter :: after) :
    ∃ between, before = word ++ between ∧ rest = between ++ letter :: after := by
  rcases List.append_eq_append_iff.mp same with
    ⟨between, beforeEq, restEq⟩ | ⟨between, wordEq, restEq⟩
  · exact ⟨between, beforeEq, restEq⟩
  · cases between with
    | nil => exact ⟨[], by simpa using wordEq.symm, by simpa using restEq.symm⟩
    | cons first others =>
        have isFirst : letter = first := (List.cons.inj restEq).1
        have member : letter ∈ word := by
          rw [wordEq, isFirst]
          exact List.mem_append_right before List.mem_cons_self
        rw [inside letter member] at outside
        cases outside

theorem dropWhile_of_endsClass (inside : ∀ letter ∈ word, test letter = true)
    (ends : EndsClass test rest) : (word ++ rest).dropWhile test = rest := by
  rw [List.dropWhile_append_of_pos inside]
  cases rest with
  | nil => rfl
  | cons letter others => exact List.dropWhile_cons_of_neg (by simpa [EndsClass] using ends)

/-! ## Ends of a text -/

theorem not_endsIn {marker : String} {letters : List Char} {mark last : Char}
    (marks : marker.toList.getLast? = some mark) (ends : letters.getLast? = some last)
    (other : mark ≠ last) : endsIn marker letters = false := by
  rw [Bool.eq_false_iff]
  intro isEnd
  obtain ⟨front, rfl⟩ := List.isSuffixOf_iff_suffix.mp isEnd
  have nonempty : marker.toList ≠ [] := by
    intro empty
    rw [empty] at marks
    cases marks
  rw [List.getLast?_append_of_ne_nil _ nonempty, marks] at ends
  exact other (Option.some.inj ends)

theorem endsIn_of_eq_append {marker : String} {letters front : List Char}
    (same : letters = front ++ marker.toList) : endsIn marker letters = true :=
  List.isSuffixOf_iff_suffix.mpr ⟨front, same.symm⟩

/-- The last character outside a class. -/
def lastOutside? (test : Char → Bool) (letters : List Char) : Option Char :=
  letters.reverse.find? fun letter => !test letter

section LastOutside

variable {front back letters : List Char} {letter : Char}

theorem lastOutside?_append (front back : List Char) :
    lastOutside? test (front ++ back) = (lastOutside? test back).or (lastOutside? test front) := by
  rw [lastOutside?, List.reverse_append, List.find?_append]
  rfl

theorem lastOutside?_append_of_eq_some (front : List Char)
    (found : lastOutside? test back = some letter) :
    lastOutside? test (front ++ back) = some letter := by
  rw [lastOutside?_append, found]
  rfl

theorem lastOutside?_eq_none (inside : ∀ letter ∈ letters, test letter = true) :
    lastOutside? test letters = none := by
  rw [lastOutside?, List.find?_eq_none]
  intro letter member
  rw [inside letter (List.mem_reverse.mp member)]
  exact Bool.false_ne_true

theorem mem_of_lastOutside? (found : lastOutside? test letters = some letter) : letter ∈ letters :=
  List.mem_reverse.mp (List.mem_of_find?_eq_some found)

theorem exists_lastOutside? (member : letter ∈ letters) (outside : test letter = false) :
    ∃ last, lastOutside? test letters = some last := by
  apply Option.isSome_iff_exists.mp
  rw [lastOutside?, List.find?_isSome]
  exact ⟨letter, List.mem_reverse.mpr member, by rw [outside]; rfl⟩

end LastOutside

/-! ## Letters -/

theorem forall_of_all {test : Char → Prop} [DecidablePred test] {letters : List Char}
    (all : letters.all (fun letter => decide (test letter)) = true) :
    ∀ letter ∈ letters, test letter :=
  fun letter member => of_decide_eq_true (List.all_eq_true.mp all letter member)

theorem forall_eq_false_of_any {test : Char → Bool} {letters : List Char}
    (noLetter : letters.any test = false) : ∀ letter ∈ letters, test letter = false :=
  fun letter member => Bool.eq_false_iff.mpr (List.any_eq_false.mp noLetter letter member)

theorem toNat_of_isAlpha {letter : Char} (alphabetic : letter.isAlpha = true) :
    65 ≤ letter.toNat ∧ letter.toNat ≤ 122 := by
  have cased : letter.isUpper = true ∨ letter.isLower = true := Bool.or_eq_true_iff.mp alphabetic
  rcases cased with upper | lower
  · have bounds : 65 ≤ letter.toNat ∧ letter.toNat ≤ 90 := of_decide_eq_true upper
    omega
  · obtain ⟨least, most⟩ := Bool.and_eq_true_iff.mp lower
    have bounds : 97 ≤ letter.toNat ∧ letter.toNat ≤ 122 :=
      ⟨of_decide_eq_true least, of_decide_eq_true most⟩
    omega

theorem isAscii_of_isAlpha {letter : Char} (alphabetic : letter.isAlpha = true) :
    isAscii letter = true := by
  have below := (toNat_of_isAlpha alphabetic).2
  rw [isAscii, decide_eq_true_eq]
  omega

theorem isWord_of_isAlpha {letter : Char} (alphabetic : letter.isAlpha = true) :
    isWord letter = true := by
  rw [isWord, if_pos (isAscii_of_isAlpha alphabetic), Char.isAlphanum, alphabetic]
  rfl

theorem isName_of_isAlpha {letter : Char} (alphabetic : letter.isAlpha = true) :
    isName letter = true := by
  rw [isName, isWord_of_isAlpha alphabetic]
  rfl

theorem isIdentifier_of_isAlpha {letter : Char} (alphabetic : letter.isAlpha = true) :
    isIdentifier letter = true := by
  rw [isIdentifier, isAlphabetic, if_pos (isAscii_of_isAlpha alphabetic), alphabetic]
  rfl

theorem isSpace_of_isAlpha {letter : Char} (alphabetic : letter.isAlpha = true) :
    isSpace letter = false := by
  have bounds := toNat_of_isAlpha alphabetic
  rw [Bool.eq_false_iff]
  intro isSpace
  simp only [Text.isSpace, Bool.or_eq_true, Bool.and_eq_true, decide_eq_true_eq, beq_iff_eq]
    at isSpace
  omega

theorem isAlpha_of_isSpace {letter : Char} (spaced : isSpace letter = true) :
    letter.isAlpha = false := by
  rw [Bool.eq_false_iff]
  intro alphabetic
  rw [isSpace_of_isAlpha alphabetic] at spaced
  cases spaced

/-! ## White space -/

section Trim

variable {front body back : List Char} (ends : EndsClass isSpace body.reverse)
  (spacedBack : ∀ letter ∈ back, isSpace letter = true)

include ends spacedBack

theorem trimEnd_append : trimEnd (body ++ back) = body := by
  have spacedReverse : ∀ letter ∈ back.reverse, isSpace letter = true :=
    fun letter member => spacedBack letter (List.mem_reverse.mp member)
  rw [trimEnd, dropEndWhile, List.reverse_append, dropWhile_of_endsClass spacedReverse ends,
    List.reverse_reverse]

/-- White space around a text is trimmed, and no more than that if it has none at its own ends. -/
theorem trim_append (spacedFront : ∀ letter ∈ front, isSpace letter = true)
    (starts : EndsClass isSpace body) : trim (front ++ body ++ back) = body := by
  cases body with
  | nil =>
      rw [trim_eq_nil_iff, List.append_nil]
      exact fun letter member =>
        (List.mem_append.mp member).elim (spacedFront letter) (spacedBack letter)
  | cons letter others =>
      have startsAll : EndsClass isSpace (letter :: others ++ back) := starts
      rw [trim, trimStart, List.append_assoc, dropWhile_of_endsClass spacedFront startsAll,
        trimEnd_append ends spacedBack]

end Trim

/-- The code points of white space. -/
def spaceCodes : List Nat :=
  [9, 10, 11, 12, 13, 0x20, 0x85, 0xA0, 0x1680] ++ List.range' 0x2000 11 ++
    [0x2028, 0x2029, 0x202F, 0x205F, 0x3000]

theorem mem_spaceCodes {letter : Char} (spaced : isSpace letter = true) :
    letter.toNat ∈ spaceCodes := by
  simp only [isSpace, Bool.or_eq_true, Bool.and_eq_true, decide_eq_true_eq, beq_iff_eq] at spaced
  simp only [spaceCodes, List.mem_append, List.mem_cons, List.not_mem_nil, or_false,
    List.mem_range'_1]
  omega

theorem covers_eq_any (table : Array (Nat × Nat)) (code : Nat) :
    covers table code = table.toList.any fun range => range.1 ≤ code && code ≤ range.2 :=
  Array.any_toList.symm

theorem isIdentifier_of_mem_spaceCodes :
    ∀ code ∈ spaceCodes, isIdentifier (Char.ofNat code) = false := by
  simp only [isIdentifier, isAlphabetic, isNumeric, covers_eq_any]
  decide +kernel

theorem isWord_of_mem_spaceCodes : ∀ code ∈ spaceCodes, isWord (Char.ofNat code) = false := by
  simp only [isWord, covers_eq_any]
  decide +kernel

theorem isWord_of_isSpace {letter : Char} (spaced : isSpace letter = true) :
    isWord letter = false := by
  rw [← Char.ofNat_toNat letter]
  exact isWord_of_mem_spaceCodes letter.toNat (mem_spaceCodes spaced)

theorem isName_of_isSpace {letter : Char} (spaced : isSpace letter = true) :
    isName letter = false := by
  have noDollar : letter ≠ '$' := by
    rintro rfl
    exact absurd spaced (by decide)
  rw [isName, isWord_of_isSpace spaced, Bool.false_or, beq_eq_false_iff_ne]
  exact noDollar

theorem isIdentifier_of_isSpace {letter : Char} (spaced : isSpace letter = true) :
    isIdentifier letter = false := by
  rw [← Char.ofNat_toNat letter]
  exact isIdentifier_of_mem_spaceCodes letter.toNat (mem_spaceCodes spaced)

end ScriptLint.Text
