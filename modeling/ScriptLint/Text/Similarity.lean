/-!
# Similarity of names

The Jaro–Winkler similarity of two texts, a number between zero and one. Two characters match if
they are equal and not farther apart than half the longer text; the similarity is the mean of three
shares of the matching characters, raised for texts that are similar already and begin alike.
-/

namespace ScriptLint.Text

/-- The characters of a text with a mark for those that have been matched. -/
abbrev Marked := List (Char × Bool)

/-- Marks the first free occurrence of a character between two positions, the second not included;
the first position of the list is given. -/
def markBetween (letter : Char) (low high : Nat) (position : Nat) : Marked → Option Marked
  | [] => none
  | (candidate, taken) :: rest =>
      if low ≤ position && position < high && !taken && candidate == letter then
        some ((candidate, true) :: rest)
      else (markBetween letter low high (position + 1) rest).map ((candidate, taken) :: ·)

/-- The characters of a text that have a match, from the given position on, and the other text with
its matched characters marked. -/
def matchedLetters (range : Nat) (position : Nat) : List Char → Marked → List Char × Marked
  | [], other => ([], other)
  | letter :: rest, other =>
      match markBetween letter (position - range) (position + range + 1) 0 other with
      | some marked =>
          let (letters, marked) := matchedLetters range (position + 1) rest marked
          (letter :: letters, marked)
      | none => matchedLetters range (position + 1) rest other

def jaro (first second : List Char) : Float :=
  if first.isEmpty && second.isEmpty then 1
  else if first.isEmpty || second.isEmpty then 0
  else
    let range := max first.length second.length / 2 - 1
    let (letters, marked) := matchedLetters range 0 first (second.map fun letter => (letter, false))
    let others := (marked.filter (·.2)).map (·.1)
    let count := letters.length
    if count = 0 then 0
    else
      let transposed := ((letters.zip others).filter fun pair => pair.1 != pair.2).length / 2
      (count.toFloat / first.length.toFloat + count.toFloat / second.length.toFloat +
        (count - transposed).toFloat / count.toFloat) / 3

/-- Number of characters, at most four, with which both texts begin. -/
def commonStart (first second : List Char) : Nat :=
  ((first.take 4).zip second |>.takeWhile fun pair => pair.1 == pair.2).length

def similarity (first second : List Char) : Float :=
  let base := jaro first second
  if base > 0.7 then base + 0.1 * (commonStart first second).toFloat * (1 - base) else base

/-- The candidate most similar to a name, if its similarity reaches the threshold. Of equally
similar candidates the last one wins. -/
def mostSimilar? (threshold : Float) (name : String) (candidates : List String) : Option String :=
  let scored := candidates.map fun candidate =>
    (candidate, similarity name.toList candidate.toList)
  let best := (scored.filter fun entry => threshold ≤ entry.2).foldl
    (fun (best : Option (String × Float)) entry =>
      match best with
      | some present => if present.2 ≤ entry.2 then some entry else best
      | none => some entry) none
  best.map (·.1)

end ScriptLint.Text
