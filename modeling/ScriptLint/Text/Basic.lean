import ScriptLint.Text.Class

/-!
# Runs of characters

Text is a list of characters. Positions come in two units: a byte position counts the bytes of the
UTF-8 encoding, a character position counts characters. The functions here convert between the two,
trim, and search; each is a recursion on the characters.
-/

namespace ScriptLint.Text

/-- Number of bytes in the UTF-8 encoding. -/
def byteLength : List Char → Nat
  | [] => 0
  | letter :: rest => letter.utf8Size + byteLength rest

@[simp]
theorem byteLength_nil : byteLength [] = 0 := rfl

@[simp]
theorem byteLength_cons (letter : Char) (rest : List Char) :
    byteLength (letter :: rest) = letter.utf8Size + byteLength rest := rfl

@[simp]
theorem byteLength_append (first second : List Char) :
    byteLength (first ++ second) = byteLength first + byteLength second := by
  induction first with
  | nil => simp
  | cons letter rest hypothesis => simp [hypothesis, Nat.add_assoc]

def takeBytes (position : Nat) : List Char → List Char
  | [] => []
  | letter :: rest =>
      if position = 0 then [] else letter :: takeBytes (position - letter.utf8Size) rest

/-- The characters before a byte position and those from it on, unless the position lies inside a
character or beyond the end. -/
def splitAtByte? : List Char → Nat → Option (List Char × List Char)
  | letters, 0 => some ([], letters)
  | [], _ + 1 => none
  | letter :: rest, position@(_ + 1) =>
      if letter.utf8Size ≤ position then
        (splitAtByte? rest (position - letter.utf8Size)).map fun halves =>
          (letter :: halves.1, halves.2)
      else none

/-- Character column of a byte position of a line. A position inside a character or beyond the end
counts as the end of the line. -/
def charColumn (line : List Char) (position : Nat) : Nat :=
  match splitAtByte? line position with
  | some (before, _) => before.length
  | none => line.length

/-- The text without the white space before its first other character. -/
def trimStart (letters : List Char) : List Char := letters.dropWhile isSpace

/-- The text without the characters of a class after its last other character. -/
def dropEndWhile (test : Char → Bool) (letters : List Char) : List Char :=
  (letters.reverse.dropWhile test).reverse

def trimEnd (letters : List Char) : List Char := dropEndWhile isSpace letters

def trim (letters : List Char) : List Char := trimEnd (trimStart letters)

def isBlank (letters : List Char) : Bool := letters.all isSpace

def beginsWith (marker : String) (letters : List Char) : Bool := marker.toList.isPrefixOf letters

def endsIn (marker : String) (letters : List Char) : Bool := marker.toList.isSuffixOf letters

/-- The text around the first occurrence of a marker: what stands before it and what follows it. -/
def cutAt? (marker : List Char) : List Char → Option (List Char × List Char)
  | [] => if marker.isEmpty then some ([], []) else none
  | letter :: rest =>
      if marker.isPrefixOf (letter :: rest) then
        some ([], (letter :: rest).drop marker.length)
      else
        (cutAt? marker rest).map fun halves => (letter :: halves.1, halves.2)

/-- The pieces between the occurrences of a separating character, at least one. -/
def splitOn (separator : Char) : List Char → List (List Char)
  | [] => [[]]
  | letter :: rest =>
      if letter == separator then [] :: splitOn separator rest
      else
        match splitOn separator rest with
        | [] => [[letter]]
        | piece :: pieces => (letter :: piece) :: pieces

theorem splitOn_ne_nil (separator : Char) (letters : List Char) :
    splitOn separator letters ≠ [] := by
  cases letters with
  | nil => simp [splitOn]
  | cons letter rest =>
      unfold splitOn
      split
      · simp
      · split <;> simp

/-- The pieces put together again, with the separating character between neighbours. -/
def joinWith (separator : Char) : List (List Char) → List Char
  | [] => []
  | [piece] => piece
  | piece :: next :: pieces => piece ++ separator :: joinWith separator (next :: pieces)

theorem joinWith_splitOn (separator : Char) (letters : List Char) :
    joinWith separator (splitOn separator letters) = letters := by
  induction letters with
  | nil => rfl
  | cons letter rest hypothesis =>
      unfold splitOn
      split
      · next same =>
          obtain ⟨piece, pieces, equality⟩ :=
            List.exists_cons_of_ne_nil (splitOn_ne_nil separator rest)
          rw [equality] at hypothesis ⊢
          simp only [beq_iff_eq] at same
          simp [joinWith, hypothesis, same]
      · split
        · next equality => exact absurd equality (splitOn_ne_nil separator rest)
        · next piece pieces equality =>
            rw [equality] at hypothesis
            cases pieces with
            | nil => simpa [joinWith] using hypothesis
            | cons next pieces => simpa [joinWith] using hypothesis

end ScriptLint.Text
