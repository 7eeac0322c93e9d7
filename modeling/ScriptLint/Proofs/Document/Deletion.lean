import ScriptLint.Proofs.Document.Joined

/-!
# Deleting the spans of issues

The characters in the spans of issues can be deleted from a document. Spans lie within lines, so the
document keeps its line feeds, and each line loses the characters at the columns of the spans. If
those are the columns of one part of the line, the line keeps what stands before and behind that
part.
-/

namespace ScriptLint

open Text

/-- The character at a column of a line of the document is in the span of the issue. -/
def Issue.spans (issue : Issue) (document : Document) (index column : Nat) : Bool :=
  issue.line == index && issue.character ≤ column &&
    column < issue.character + issue.resolvedLength (document.line index)

theorem Issue.spans_iff {issue : Issue} {document : Document} {index column : Nat} :
    issue.spans document index column = true ↔ issue.line = index ∧ issue.character ≤ column ∧
      column < issue.character + issue.resolvedLength (document.line index) := by
  simp only [spans, Bool.and_eq_true, beq_iff_eq, decide_eq_true_eq, and_assoc]

/-- The characters of a line but for those at the columns that are deleted. -/
def Text.deleteColumns (deletes : Nat → Bool) (line : List Char) : List Char :=
  (line.zipIdx.filter fun entry => !deletes entry.2).map (·.1)

/-- The document without the characters in the spans of the issues. -/
def Document.deleting (document : Document) (issues : List Issue) : Document where
  text := joinWith '\n' <| (splitOn '\n' document.text).mapIdx fun index =>
    deleteColumns fun column => issues.any (·.spans document index column)

namespace Text

variable {deletes : Nat → Bool} {front middle back line : List Char}

theorem deleteColumns_subset (deletes : Nat → Bool) (line : List Char) :
    deleteColumns deletes line ⊆ line := by
  intro letter member
  obtain ⟨entry, kept, rfl⟩ := List.mem_map.mp member
  exact List.fst_mem_of_mem_zipIdx (List.mem_of_mem_filter kept)

theorem filter_zipIdx_of_kept {start : Nat} (keeps : ∀ column, start ≤ column →
    column < start + line.length → deletes column = false) :
    (line.zipIdx start).filter (fun entry => !deletes entry.2) = line.zipIdx start := by
  rw [List.filter_eq_self]
  intro entry member
  have bounds := List.mem_zipIdx member
  rw [Bool.not_eq_true']
  exact keeps entry.2 bounds.1 bounds.2.1

theorem filter_zipIdx_of_deleted {start : Nat} (drops : ∀ column, start ≤ column →
    column < start + line.length → deletes column = true) :
    (line.zipIdx start).filter (fun entry => !deletes entry.2) = [] := by
  rw [List.filter_eq_nil_iff]
  intro entry member
  have bounds := List.mem_zipIdx member
  rw [Bool.not_eq_true', Bool.not_eq_false]
  exact drops entry.2 bounds.1 bounds.2.1

theorem deleteColumns_eq_self (keeps : ∀ column, deletes column = false) :
    deleteColumns deletes line = line := by
  rw [deleteColumns, filter_zipIdx_of_kept fun column _ _ => keeps column, List.zipIdx_map_fst]

/-- If the columns of the part in the middle are deleted, the parts around it are left. -/
theorem deleteColumns_append
    (exactly : ∀ column, deletes column = true ↔
      front.length ≤ column ∧ column < front.length + middle.length) :
    deleteColumns deletes (front ++ middle ++ back) = front ++ back := by
  have outside : ∀ column, column < front.length ∨ front.length + middle.length ≤ column →
      deletes column = false := by
    intro column beside
    rw [Bool.eq_false_iff, Ne, exactly]
    omega
  have frontKept : front.zipIdx.filter (fun entry => !deletes entry.2) = front.zipIdx :=
    filter_zipIdx_of_kept fun column _ below => outside column (.inl (by omega))
  have middleDropped : (middle.zipIdx front.length).filter (fun entry => !deletes entry.2) = [] :=
    filter_zipIdx_of_deleted fun column above below => (exactly column).mpr ⟨above, below⟩
  have backKept : (back.zipIdx (front ++ middle).length).filter (fun entry => !deletes entry.2) =
      back.zipIdx (front ++ middle).length := by
    rw [List.length_append]
    exact filter_zipIdx_of_kept fun column above _ => outside column (.inr above)
  rw [deleteColumns, List.zipIdx_append, List.zipIdx_append, Nat.zero_add, Nat.zero_add,
    List.filter_append, List.filter_append, frontKept, middleDropped, backKept, List.append_nil,
    List.map_append, List.zipIdx_map_fst, List.zipIdx_map_fst]

end Text

/-- Deletion leaves the line feeds, so it works on each line by itself. -/
theorem Document.splitOn_deleting (document : Document) (issues : List Issue) :
    splitOn '\n' (document.deleting issues).text =
      (splitOn '\n' document.text).mapIdx fun index =>
        deleteColumns fun column => issues.any (·.spans document index column) := by
  apply splitOn_joinWith
  · rw [Ne, List.mapIdx_eq_nil_iff]
    exact splitOn_ne_nil '\n' document.text
  · intro piece member
    obtain ⟨index, below, rfl⟩ := List.mem_mapIdx.mp member
    intro feed
    exact not_mem_of_mem_splitOn (List.getElem_mem below) (deleteColumns_subset _ _ feed)

/-! ## Carriage returns -/

theorem dropReturn_append_ending {line ending : List Char} (absent : '\r' ∉ line)
    (isEnding : ending = [] ∨ ending = ['\r']) : dropReturn (line ++ ending) = line := by
  unfold dropReturn
  rcases isEnding with noEnding | isReturn
  · rw [noEnding, List.append_nil, if_neg]
    exact fun returns => absent (List.mem_of_getLast? returns)
  · rw [isReturn, List.getLast?_concat, if_pos rfl, List.dropLast_concat]

/-- Each carriage return of a text is directly followed by a line feed. -/
def Text.ReturnsMeetFeeds (letters : List Char) : Prop :=
  ∀ place < letters.length, letters[place]? = some '\r' → letters[place + 1]? = some '\n'

instance (letters : List Char) : Decidable (ReturnsMeetFeeds letters) :=
  inferInstanceAs (Decidable (∀ place < letters.length, _ → _))

/-- Then a line has no carriage return but the one at its end. -/
theorem Text.ReturnsMeetFeeds.not_mem_dropReturn {letters : List Char}
    (meet : ReturnsMeetFeeds letters) {written : List Char}
    (isPiece : written ∈ splitOn '\n' letters) : '\r' ∉ dropReturn written := by
  obtain ⟨index, found⟩ := List.mem_iff_getElem?.mp isPiece
  have absent : ∀ piece ∈ splitOn '\n' letters, '\n' ∉ piece :=
    fun piece => not_mem_of_mem_splitOn
  obtain ⟨initial, later, splitEq⟩ : ∃ initial later, letters = initial ++ written ++ later := by
    obtain ⟨initial, joinedEq, _⟩ := exists_joinWith_eq absent found
    rw [joinWith_splitOn] at joinedEq
    exact ⟨initial, _, joinedEq⟩
  have isLast : ∀ front back, written = front ++ '\r' :: back → back = [] := by
    intro front back writtenEq
    have textEq : letters = (initial ++ front) ++ '\r' :: (back ++ later) := by
      rw [splitEq, writtenEq]
      simp only [List.append_assoc, List.cons_append]
    have isReturn : letters[(initial ++ front).length]? = some '\r' := by
      rw [textEq, List.getElem?_append_right le_rfl, Nat.sub_self]
      rfl
    have isFeed := meet _ (List.getElem?_eq_some_iff.mp isReturn).1 isReturn
    rw [textEq, List.getElem?_append_right (by omega), Nat.add_sub_cancel_left,
      List.getElem?_cons_succ] at isFeed
    cases back with
    | nil => rfl
    | cons next rest =>
        -- the line feed would be a character of the line
        have nextEq : next = '\n' := Option.some.inj isFeed
        refine absurd ?_ (absent written isPiece)
        rw [writtenEq, nextEq]
        simp
  intro member
  unfold dropReturn at member
  split at member
  · next returns =>
      obtain ⟨front, writtenEq⟩ := List.getLast?_eq_some_iff.mp returns
      rw [writtenEq, List.dropLast_concat] at member
      obtain ⟨before, after, frontEq⟩ := List.append_of_mem member
      have noMore := isLast before (after ++ ['\r'])
        (by rw [writtenEq, frontEq, List.append_assoc, List.cons_append])
      exact List.concat_ne_nil '\r' after noMore
  · next returns =>
      obtain ⟨before, after, writtenEq⟩ := List.append_of_mem member
      rw [isLast before after writtenEq] at writtenEq
      exact returns (List.getLast?_eq_some_iff.mpr ⟨before, writtenEq⟩)

end ScriptLint
