import ScriptLint.Proofs.Source.Step
import ScriptLint.Proofs.Text.Words

/-!
# Plain code

A character of plain code opens neither a comment nor a literal, so a run of them is read without
looking ahead and leaves the scanner in the code. Only delimiters among them change the stack.
Behind plain code a line may end in a comment, which changes nothing but the code, to which it adds
spaces.
-/

namespace ScriptLint

open Text

/-- The characters that open a comment or a literal or end a line. -/
def openers : List Char := ['/', '"', '\'', '`', '\n']

/-- The characters that open or close something. -/
def delimiters : List Char := ['(', '[', '\x7b', ')', ']', '\x7d']

/-- A character of code that opens neither a comment nor a literal and stays on its line. -/
def isPlain (letter : Char) : Bool := !openers.contains letter

/-- A plain character that opens and closes nothing. -/
def isInert (letter : Char) : Bool := isPlain letter && !delimiters.contains letter

section Letters

variable {letter : Char}

theorem isPlain_of_isInert (inert : isInert letter = true) : isPlain letter = true :=
  (Bool.and_eq_true_iff.mp inert).1

theorem forall_isPlain {letters : List Char} (inert : ∀ letter ∈ letters, isInert letter = true) :
    ∀ letter ∈ letters, isPlain letter = true :=
  fun letter member => isPlain_of_isInert (inert letter member)

theorem ne_of_isPlain (plain : isPlain letter = true) :
    letter ≠ '/' ∧ letter ≠ '"' ∧ letter ≠ '\'' ∧ letter ≠ '`' ∧ letter ≠ '\n' := by
  simpa [isPlain, openers] using plain

theorem ne_of_isInert (inert : isInert letter = true) :
    letter ≠ '(' ∧ letter ≠ '[' ∧ letter ≠ '\x7b' ∧ letter ≠ ')' ∧ letter ≠ ']' ∧
      letter ≠ '\x7d' := by
  have noDelimiter := (Bool.and_eq_true_iff.mp inert).2
  simpa [delimiters] using noDelimiter

theorem isInert_of_not_mem (other : letter ∉ openers ++ delimiters) : isInert letter = true := by
  rw [List.mem_append, not_or] at other
  simpa [isInert, isPlain] using other

theorem isInert_of_isIdentifier (inside : isIdentifier letter = true) : isInert letter = true := by
  have noWord : (openers ++ delimiters).all (fun mark => !isIdentifier mark) = true := by decide
  apply isInert_of_not_mem
  intro member
  have other := List.all_eq_true.mp noWord letter member
  rw [inside] at other
  cases other

theorem isInert_of_isAlpha (alphabetic : letter.isAlpha = true) : isInert letter = true :=
  isInert_of_isIdentifier (isIdentifier_of_isAlpha alphabetic)

theorem isInert_of_isSpace (spaced : isSpace letter = true) (noFeed : letter ≠ '\n') :
    isInert letter = true := by
  have noSpace :
      (openers ++ delimiters).all (fun mark => mark == '\n' || !isSpace mark) = true := by decide
  apply isInert_of_not_mem
  intro member
  have other := List.all_eq_true.mp noSpace letter member
  rw [spaced, beq_eq_false_iff_ne.mpr noFeed] at other
  cases other

end Letters

namespace Progress

variable {progress : Progress} {context : LineContext} {letter : Char} {letters : List Char}

/-- Reads characters as code, without looking ahead. -/
def skim (progress : Progress) (context : LineContext) (letters : List Char) : Progress :=
  letters.foldl (fun progress letter => progress.readCode context letter none) progress

theorem skim_nil : progress.skim context [] = progress := rfl

theorem skim_cons :
    progress.skim context (letter :: letters) =
      (progress.readCode context letter none).skim context letters := rfl

theorem skim_append (front back : List Char) :
    progress.skim context (front ++ back) = (progress.skim context front).skim context back :=
  List.foldl_append

theorem reversed_skim (letters : List Char) :
    (progress.skim context letters).reversed = letters.reverse ++ progress.reversed := by
  induction letters generalizing progress with
  | nil => rfl
  | cons letter rest inductionHypothesis =>
      have noComment : opensComment letter none = false := by simp [opensComment]
      rw [skim_cons, inductionHypothesis, (Keeps.readCode noComment).reversed_eq,
        List.reverse_cons, List.append_assoc]
      rfl

/-- The next character is read as code and may belong to a word. -/
def IsInCode (progress : Progress) : Prop := progress.within = .plain ∨ progress.within = .word

theorem IsInCode.readCode (plain : isPlain letter = true) :
    (progress.readCode context letter none).IsInCode := by
  obtain ⟨noSlash, noDouble, noSingle, noBacktick, _⟩ := ne_of_isPlain plain
  simp only [Progress.readCode, beq_iff_eq, noSlash, noDouble, noSingle, noBacktick, false_and,
    Bool.and_eq_true, Bool.or_eq_true, or_self, if_false]
  split_ifs
  all_goals first | exact Or.inl rfl | exact Or.inr rfl

theorem IsInCode.skim (inCode : progress.IsInCode)
    (plain : ∀ letter ∈ letters, isPlain letter = true) :
    (progress.skim context letters).IsInCode := by
  induction letters generalizing progress with
  | nil => exact inCode
  | cons letter rest inductionHypothesis =>
      rw [List.forall_mem_cons] at plain
      exact inductionHypothesis (.readCode plain.1) plain.2

theorem IsInCode.read_eq (inCode : progress.IsInCode) (plain : isPlain letter = true)
    (next : Option Char) :
    progress.read context letter next = progress.readCode context letter none := by
  have noComment : opensComment letter next = false := by
    simp [opensComment, (ne_of_isPlain plain).1]
  rw [← readCode_of_not_opensComment noComment]
  rcases inCode with within | within
  · rw [Progress.read, within]
  · rw [Progress.read, within]

/-- Plain code is read without looking ahead. -/
theorem IsInCode.readAll_append (inCode : progress.IsInCode)
    (plain : ∀ letter ∈ letters, isPlain letter = true) (rest : List Char) :
    progress.readAll context (letters ++ rest) =
      (progress.skim context letters).readAll context rest := by
  induction letters generalizing progress with
  | nil => rfl
  | cons letter others inductionHypothesis =>
      rw [List.forall_mem_cons] at plain
      rw [List.cons_append, Progress.readAll, inCode.read_eq plain.1, skim_cons]
      exact inductionHypothesis (.readCode plain.1) plain.2

/-! ## The stack -/

/-- What opens and closes nothing belongs to a word, is white space or is a mark. -/
theorem readCode_of_isInert (inert : isInert letter = true) :
    progress.readCode context letter none =
      if isIdentifier letter then progress.keepWord letter
      else if isSpace letter then (progress.keep letter).goOn .plain
      else progress.keepMark letter := by
  obtain ⟨noSlash, noDouble, noSingle, noBacktick, _⟩ := ne_of_isPlain (isPlain_of_isInert inert)
  obtain ⟨noParen, noBracket, noBrace, noParenEnd, noBracketEnd, noBraceEnd⟩ := ne_of_isInert inert
  simp only [readCode, beq_iff_eq, noSlash, noDouble, noSingle, noBacktick, noParen, noBracket,
    noBrace, noParenEnd, noBracketEnd, noBraceEnd, false_and, Bool.and_eq_true, Bool.or_eq_true,
    or_self, if_false]

theorem stack_readCode_of_isInert (inert : isInert letter = true) :
    (progress.readCode context letter none).stack = progress.stack := by
  rw [readCode_of_isInert inert]
  split_ifs
  · rfl
  · rfl
  · rfl

theorem stack_skim_of_isInert (inert : ∀ letter ∈ letters, isInert letter = true) :
    (progress.skim context letters).stack = progress.stack := by
  induction letters generalizing progress with
  | nil => rfl
  | cons letter rest inductionHypothesis =>
      rw [List.forall_mem_cons] at inert
      rw [skim_cons, inductionHypothesis inert.2, stack_readCode_of_isInert inert.1]

theorem stack_skim_paren :
    (progress.skim context ['(']).stack =
      .paren (progress.last.isOneOf headerWords) :: progress.stack := rfl

theorem stack_skim_brace :
    (progress.skim context ['\x7b']).stack =
      .brace (Brace.judge progress.reversed context.previous progress.stack.head?) context.index ::
        progress.stack := rfl

theorem stack_skim_closing (closes : letter = ')' ∨ letter = '\x7d') :
    (progress.skim context [letter]).stack = progress.stack.tail := by
  rcases closes with rfl | rfl
  · rfl
  · rfl

/-! ## The last token -/

theorem readCode_of_isIdentifier (inside : isIdentifier letter = true) :
    progress.readCode context letter none = progress.keepWord letter := by
  rw [readCode_of_isInert (isInert_of_isIdentifier inside), if_pos inside]

theorem within_skim_of_isSpace (plain : progress.within = .plain)
    (spaced : ∀ letter ∈ letters, isSpace letter = true ∧ letter ≠ '\n') :
    (progress.skim context letters).within = .plain := by
  induction letters generalizing progress with
  | nil => exact plain
  | cons letter rest inductionHypothesis =>
      rw [List.forall_mem_cons] at spaced
      have skipped : progress.readCode context letter none =
          (progress.keep letter).goOn .plain := by
        rw [readCode_of_isInert (isInert_of_isSpace spaced.1.1 spaced.1.2),
          isIdentifier_of_isSpace spaced.1.1, if_neg Bool.false_ne_true, if_pos spaced.1.1]
      rw [skim_cons, skipped]
      exact inductionHypothesis rfl spaced.2

/-- A word is the last token behind it. -/
theorem last_skim_of_isIdentifier (plain : progress.within = .plain) (nonempty : letters ≠ [])
    (inside : ∀ letter ∈ letters, isIdentifier letter = true) :
    (progress.skim context letters).last = .word letters ∧
      (progress.skim context letters).within = .word := by
  -- each letter extends the token in front of it, so the induction takes letters off at the end
  induction letters using List.reverseRecOn with
  | nil => exact absurd rfl nonempty
  | append_singleton word letter inductionHypothesis =>
      rw [List.forall_mem_append, List.forall_mem_singleton] at inside
      rw [skim_append, skim_cons, skim_nil, readCode_of_isIdentifier inside.2]
      by_cases first : word = []
      · subst first
        rw [skim_nil, keepWord, plain]
        exact ⟨rfl, rfl⟩
      · obtain ⟨lastEq, withinEq⟩ := inductionHypothesis first inside.1
        rw [keepWord, lastEq, withinEq]
        exact ⟨rfl, rfl⟩

theorem last_skim_of_isAlpha (plain : progress.within = .plain) (nonempty : letters ≠ [])
    (alphabetic : ∀ letter ∈ letters, letter.isAlpha = true) :
    (progress.skim context letters).last = .word letters ∧
      (progress.skim context letters).within = .word :=
  last_skim_of_isIdentifier plain nonempty fun letter member =>
    isIdentifier_of_isAlpha (alphabetic letter member)

/-! ## Comments -/

/-- A line comment hides the rest of its line. -/
theorem readAll_lineComment (within : progress.within = .lineComment) (letters : List Char) :
    progress.readAll context letters = { progress with
      reversed := List.replicate (byteLength letters) ' ' ++ progress.reversed
      position := progress.position + byteLength letters } := by
  induction letters generalizing progress with
  | nil => rfl
  | cons letter rest inductionHypothesis =>
      have hidden : progress.read context letter rest.head? = progress.hide letter := by
        rw [read, within]
      have stays : (progress.hide letter).within = .lineComment := within
      have spaces : List.replicate (byteLength (letter :: rest)) ' ' ++ progress.reversed =
          List.replicate (byteLength rest) ' ' ++ (progress.hide letter).reversed := by
        rw [byteLength_cons, Nat.add_comm, List.replicate_add, List.append_assoc]
        rfl
      have reaches : progress.position + byteLength (letter :: rest) =
          (progress.hide letter).position + byteLength rest := by
        rw [byteLength_cons, ← Nat.add_assoc]
        rfl
      rw [readAll, hidden, inductionHypothesis stays, spaces, reaches]
      rfl

/-- A comment up to the end of the line adds spaces to the code and changes nothing else. -/
theorem IsInCode.readAll_comment (inCode : progress.IsInCode) {comment : List Char}
    (opens : comment = [] ∨ "//".toList <+: comment) :
    (progress.readAll context comment).within.leave = .code ∧
      (progress.readAll context comment).stack = progress.stack ∧
      ∃ count, (progress.readAll context comment).reversed =
        List.replicate count ' ' ++ progress.reversed := by
  rcases opens with rfl | ⟨text, rfl⟩
  · refine ⟨?_, rfl, 0, rfl⟩
    rcases inCode with within | within
    · rw [readAll, within]
      rfl
    · rw [readAll, within]
      rfl
  · have opened : progress.read context '/' (some '/') =
        ((progress.openRegion .comment).hide '/').goOn .lineComment := by
      rcases inCode with within | within
      · rw [read, within]
        rfl
      · rw [read, within]
        rfl
    have within : (((progress.openRegion .comment).hide '/').goOn .lineComment).within =
        .lineComment := rfl
    have hidden := @readAll_lineComment _ context within ('/' :: text)
    change (readAll context ('/' :: text) (progress.read context '/' (some '/'))).within.leave = _ ∧
      (readAll context ('/' :: text) (progress.read context '/' (some '/'))).stack = _ ∧
      ∃ count, (readAll context ('/' :: text) (progress.read context '/' (some '/'))).reversed = _
    rw [opened, hidden]
    refine ⟨rfl, rfl, byteLength ('/' :: text) + 1, ?_⟩
    rw [List.replicate_succ', List.append_assoc]
    rfl

end Progress

end ScriptLint
