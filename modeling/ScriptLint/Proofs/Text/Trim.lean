import ScriptLint.Text.Basic
import Mathlib.Data.List.DropRight
import Mathlib.Data.List.TakeWhile

/-!
# Trimming

Trimming cuts characters of a class off the ends of a text and nothing else. A text is cut down to
nothing exactly if it has no other character, and otherwise begins and ends with one.
-/

namespace ScriptLint.Text

theorem dropEndWhile_eq_rdropWhile (test : Char → Bool) (letters : List Char) :
    dropEndWhile test letters = letters.rdropWhile test := rfl

theorem dropEndWhile_append_rtakeWhile (test : Char → Bool) (letters : List Char) :
    dropEndWhile test letters ++ letters.rtakeWhile test = letters :=
  List.rdropWhile_append_rtakeWhile

theorem takeWhile_append_trimStart (letters : List Char) :
    letters.takeWhile isSpace ++ trimStart letters = letters :=
  List.takeWhile_append_dropWhile

/-- A text consists of white space, its trimmed part and white space. -/
theorem exists_eq_append_trim (letters : List Char) :
    ∃ trailing, letters = letters.takeWhile isSpace ++ trim letters ++ trailing ∧
      ∀ letter ∈ trailing, isSpace letter := by
  refine ⟨(trimStart letters).rtakeWhile isSpace, ?_, fun letter member => ?_⟩
  · rw [List.append_assoc, trim, trimEnd, dropEndWhile_append_rtakeWhile,
      takeWhile_append_trimStart]
  · exact List.mem_rtakeWhile_imp member

theorem length_takeWhile_add_length_trim_le (letters : List Char) :
    (letters.takeWhile isSpace).length + (trim letters).length ≤ letters.length := by
  obtain ⟨trailing, equality, _⟩ := exists_eq_append_trim letters
  have lengths := congrArg List.length equality
  rw [List.length_append, List.length_append] at lengths
  omega

/-- The white space at the start of a text is that of its beginning, if there is more to that. -/
theorem takeWhile_isSpace_append {before : List Char} (other : ∃ letter ∈ before, ¬ isSpace letter)
    (after : List Char) :
    (before ++ after).takeWhile isSpace = before.takeWhile isSpace := by
  obtain ⟨letter, member, visible⟩ := other
  rw [List.takeWhile_append, if_neg]
  intro whole
  have same : before.takeWhile isSpace = before :=
    (List.takeWhile_prefix isSpace).eq_of_length whole
  exact visible (List.takeWhile_eq_self_iff.mp same letter member)

/-- A marker at the start of a text stays there when white space is cut off the end. -/
theorem prefix_trimEnd_append {marker : List Char} (stays : trimEnd marker = marker)
    (rest : List Char) : marker <+: trimEnd (marker ++ rest) := by
  rw [trimEnd, dropEndWhile, List.reverse_append, List.dropWhile_append]
  split
  · refine ⟨[], ?_⟩
    rw [List.append_nil]
    exact stays.symm
  · rw [List.reverse_append, List.reverse_reverse]
    exact List.prefix_append marker _

theorem trim_eq_nil_iff {letters : List Char} :
    trim letters = [] ↔ ∀ letter ∈ letters, isSpace letter := by
  rw [trim, trimEnd, dropEndWhile_eq_rdropWhile, List.rdropWhile_eq_nil_iff]
  constructor
  · intro spaces letter member
    rw [← takeWhile_append_trimStart letters, List.mem_append] at member
    rcases member with leading | trimmed
    · exact List.mem_takeWhile_imp leading
    · exact spaces letter trimmed
  · intro spaces letter member
    exact spaces letter (List.dropWhile_sublist isSpace |>.subset member)

theorem isEmpty_trim (letters : List Char) : (trim letters).isEmpty = isBlank letters := by
  rw [Bool.eq_iff_iff, List.isEmpty_iff, trim_eq_nil_iff, isBlank, List.all_eq_true]

/-- Trimming leaves a blank text blank and no other one. -/
theorem isBlank_trim (letters : List Char) : isBlank (trim letters) = isBlank letters := by
  obtain ⟨trailing, same, spaced⟩ := exists_eq_append_trim letters
  have spacedTrailing : trailing.all isSpace = true := List.all_eq_true.mpr spaced
  have spacedLeading : (letters.takeWhile isSpace).all isSpace = true := List.all_takeWhile
  conv_rhs => rw [same]
  rw [isBlank, isBlank, List.all_append, List.all_append, spacedLeading, spacedTrailing,
    Bool.true_and, Bool.and_true]

end ScriptLint.Text
