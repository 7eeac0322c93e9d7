import ScriptLint.Proofs.Source.Stack
import ScriptLint.Proofs.Source.Strings

/-!
# The string literals of a line

The scanner passes a string literal from its first quote to the next one that no backslash stands
before. If strings end with their lines, what it passes are spans of the line and of its code, one
behind the other, and no template literal covers their first quotes.
-/

namespace ScriptLint

open Text

/-- The quote of the string that is read. -/
def Within.quote? : Within → Option Char
  | .string quote => some quote
  | .held after => after.quote?
  | _ => none

/-- The letters between the quotes of a string: a backslash takes the letter behind it along. -/
inductive IsStringBody (quote : Char) : List Char → Prop
  | nil : IsStringBody quote []
  | plain {letter : Char} {rest : List Char} : letter ≠ quote → letter ≠ '\\' →
      IsStringBody quote rest → IsStringBody quote (letter :: rest)
  | escaped {letter : Char} {rest : List Char} : IsStringBody quote rest →
      IsStringBody quote ('\\' :: letter :: rest)

/-- The letters are those of a string literal. -/
def IsQuoted (letters : List Char) : Prop :=
  ∃ (style : QuoteStyle) (body : List Char), IsStringBody style.quote body ∧
    letters = style.quote :: (body ++ [style.quote])

namespace Progress

/-- The letters of the string that is read, up to its end. -/
def stringRest (context : LineContext) : List Char → Progress → List Char
  | [], _ => []
  | letter :: rest, progress =>
      if progress.within.quote?.isSome then
        letter :: stringRest context rest (progress.read context letter rest.head?)
      else []

/-- A string begins with the next letter. -/
def beginsString (context : LineContext) (letter : Char) (next : Option Char)
    (progress : Progress) : Bool :=
  progress.within.quote?.isNone && (progress.read context letter next).within.quote?.isSome

/-- The string that begins with the next letter. -/
def stringHere (context : LineContext) (letter : Char) (rest : List Char) (progress : Progress) :
    Span :=
  let letters := letter :: stringRest context rest (progress.read context letter rest.head?)
  ⟨progress.position, progress.position + byteLength letters, letters⟩

/-- The string literals that are passed on the rest of a line. -/
def stringsOver (context : LineContext) : List Char → Progress → List Span
  | [], _ => []
  | letter :: rest, progress =>
      let later := stringsOver context rest (progress.read context letter rest.head?)
      if progress.beginsString context letter rest.head? then
        progress.stringHere context letter rest :: later
      else later

variable {read : List Char} {progress : Progress} {context : LineContext} {style : QuoteStyle}
  {letter : Char} {next : Option Char} {body letters rest : List Char} {string : Span}

/-! ## The first quote -/

/-- If a string is read behind the letter, the letter is its first quote. -/
def BeginsBy (letter : Char) (progress : Progress) : Prop :=
  ∀ quote, progress.within.quote? = some quote →
    ∃ style : QuoteStyle, letter = style.quote ∧ progress.within = .string style.quote

theorem beginsBy_of_none (outside : progress.within.quote? = none) :
    progress.BeginsBy letter := by
  intro quote isQuote
  cases outside.symm.trans isQuote

theorem beginsBy_readCode : (progress.readCode context letter next).BeginsBy letter := by
  unfold readCode
  refine iteInduction (fun _ => beginsBy_of_none rfl) fun _ => ?_
  refine iteInduction (fun _ => beginsBy_of_none rfl) fun _ => ?_
  refine iteInduction (fun _ => beginsBy_of_none rfl) fun _ => ?_
  refine iteInduction (fun isQuote => ?_) fun _ => ?_
  · rw [Bool.or_eq_true, beq_iff_eq, beq_iff_eq] at isQuote
    rcases isQuote with rfl | rfl
    · exact fun _ _ => ⟨.double, rfl, rfl⟩
    · exact fun _ _ => ⟨.single, rfl, rfl⟩
  -- everything else goes on in code or in a template literal
  iterate 7 refine iteInduction (fun _ => beginsBy_of_none rfl) fun _ => ?_
  exact beginsBy_of_none rfl

/-- A string begins with its quote, in code. -/
theorem quote_of_read {quote : Char} (outside : progress.within.quote? = none)
    (begins : (progress.read context letter next).within.quote? = some quote) :
    ∃ style : QuoteStyle, letter = style.quote ∧ progress.ReadsCode ∧
      (progress.read context letter next).within = .string style.quote := by
  unfold Progress.read at begins ⊢
  cases within : progress.within with
  | plain =>
      rw [within] at begins
      obtain ⟨style, letterEq, string⟩ := beginsBy_readCode quote begins
      exact ⟨style, letterEq, Or.inl within, string⟩
  | word =>
      rw [within] at begins
      obtain ⟨style, letterEq, string⟩ := beginsBy_readCode quote begins
      exact ⟨style, letterEq, Or.inr (Or.inl within), string⟩
  | flags =>
      rw [within] at begins
      dsimp only at begins ⊢
      split_ifs at begins ⊢
      · simp [keep, within, Within.quote?] at begins
      · obtain ⟨style, letterEq, string⟩ := beginsBy_readCode quote begins
        exact ⟨style, letterEq, Or.inr (Or.inr within), string⟩
  | string quote =>
      rw [within] at outside
      cases outside
  | held after =>
      rw [within] at outside begins
      have stays : after.quote? = some quote := begins
      cases outside.symm.trans stays
  | regex inClass =>
      rw [within] at begins
      simp only [readRegex] at begins
      split_ifs at begins
      all_goals simp [goOn, keep, within, Within.quote?] at begins
  | template depth =>
      rw [within] at begins
      simp only [readTemplate] at begins
      split_ifs at begins
      all_goals simp [goOn, keep, within, Within.quote?] at begins
  | blockComment =>
      rw [within] at begins
      dsimp only at begins
      split_ifs at begins
      all_goals simp [goOn, hide, within, Within.quote?] at begins
  | lineComment | blockOpening | blockClosing =>
      rw [within] at begins
      simp [goOn, hide, within, Within.quote?] at begins

/-! ## Up to the last quote -/

section Inside

variable (within : progress.within = .string style.quote)

include within

theorem read_lastQuote :
    progress.read context style.quote next = (progress.keep style.quote).goOn .plain := by
  rw [Progress.read, within]
  cases style with
  | single => rfl
  | double => rfl

theorem read_insideString (other : letter ≠ style.quote) (noBackslash : letter ≠ '\\') :
    progress.read context letter next = progress.keep letter := by
  rw [Progress.read, within]
  simp only [readString, beq_iff_eq, other, noBackslash, if_false]

theorem read_backslash_insideString :
    progress.read context '\\' next =
      (progress.keep '\\').goOn (.held (.string style.quote)) := by
  rw [Progress.read, within]
  rfl

end Inside

theorem read_held {after : Within} (within : progress.within = .held after) :
    progress.read context letter next = (progress.keep letter).goOn after := by
  rw [Progress.read, within]

/-- Up to its last quote the letters of a string are passed. -/
theorem readAll_stringBody (isBody : IsStringBody style.quote body)
    (within : progress.within = .string style.quote) (rest : List Char) :
    progress.readAll context (body ++ style.quote :: rest) =
      ((progress.pass (body ++ [style.quote])).goOn .plain).readAll context rest := by
  induction isBody generalizing progress with
  | nil =>
      rw [List.nil_append, readAll, read_lastQuote within]
      rfl
  | @plain letter others other noBackslash _ inductionHypothesis =>
      have stays : (progress.keep letter).within = .string style.quote := within
      rw [List.cons_append, readAll, read_insideString within other noBackslash,
        inductionHypothesis stays, pass_keep]
      rfl
  | @escaped letter others _ inductionHypothesis =>
      have held : ((progress.keep '\\').goOn (.held (.string style.quote))).within =
        .held (.string style.quote) := rfl
      rw [List.cons_append, List.cons_append, readAll, read_backslash_insideString within, readAll,
        read_held held, inductionHypothesis rfl]
      simp [pass, keep, goOn, Nat.add_assoc]

theorem stringRest_cons (isString : progress.within.quote?.isSome = true) :
    progress.stringRest context (letter :: rest) =
      letter :: (progress.read context letter rest.head?).stringRest context rest :=
  if_pos isString

/-- A string that ends on its line has a last quote, also if the scanner stands behind a backslash
in it. -/
theorem exists_stringBody :
    (progress.within = .string style.quote →
      (progress.readAll context letters).within.quote? = none →
      ∃ body rest, letters = body ++ style.quote :: rest ∧ IsStringBody style.quote body ∧
        progress.stringRest context letters = body ++ [style.quote]) ∧
    (progress.within = .held (.string style.quote) →
      (progress.readAll context letters).within.quote? = none →
      ∃ letter body rest, letters = letter :: (body ++ style.quote :: rest) ∧
        IsStringBody style.quote body ∧
        progress.stringRest context letters = letter :: (body ++ [style.quote])) := by
  induction letters generalizing progress with
  | nil =>
      constructor
      all_goals
        intro within closed
        rw [readAll, within] at closed
        cases closed
  | cons letter rest inductionHypothesis =>
      constructor
      · intro within closed
        have isString : progress.within.quote?.isSome = true := by rw [within]; rfl
        rw [readAll] at closed
        rw [stringRest_cons isString]
        by_cases isLast : letter = style.quote
        · subst isLast
          rw [read_lastQuote within] at closed ⊢
          refine ⟨[], rest, rfl, .nil, ?_⟩
          cases rest with
          | nil => rfl
          | cons next others => rfl
        · by_cases backslash : letter = '\\'
          · subst backslash
            rw [read_backslash_insideString within] at closed ⊢
            obtain ⟨letter, body, others, rfl, isBody, restEq⟩ :=
              inductionHypothesis.2 rfl closed
            exact ⟨'\\' :: letter :: body, others, rfl, .escaped isBody, by rw [restEq]; rfl⟩
          · have stays : (progress.keep letter).within = .string style.quote := within
            rw [read_insideString within isLast backslash] at closed ⊢
            obtain ⟨body, others, rfl, isBody, restEq⟩ := inductionHypothesis.1 stays closed
            exact ⟨letter :: body, others, rfl, .plain isLast backslash isBody, by rw [restEq]; rfl⟩
      · intro within closed
        have isString : progress.within.quote?.isSome = true := by rw [within]; rfl
        rw [readAll, read_held within] at closed
        rw [stringRest_cons isString, read_held within]
        obtain ⟨body, others, rfl, isBody, restEq⟩ := inductionHypothesis.1 rfl closed
        exact ⟨letter, body, others, rfl, isBody, by rw [restEq]⟩

/-! ## All strings of a line -/

/-- Where a string begins that ends on its line, the scanner passes its letters, and no region
covers its first quote. -/
theorem passes_stringHere (begins : progress.beginsString context letter rest.head? = true)
    (closed : (progress.readAll context (letter :: rest)).within.quote? = none) :
    let string := progress.stringHere context letter rest
    IsQuoted string.letters ∧ progress.kindNext letter rest.head? = none ∧
      (∃ after, letter :: rest = string.letters ++ after) ∧
      ∃ shown, (progress.readAll context (letter :: rest)).code =
        progress.code ++ string.letters ++ shown := by
  simp only [beginsString, Bool.and_eq_true, Option.isNone_iff_eq_none,
    Option.isSome_iff_exists] at begins
  obtain ⟨outside, quote, isQuote⟩ := begins
  obtain ⟨style, rfl, reads, within⟩ := quote_of_read outside isQuote
  obtain ⟨body, after, rfl, isBody, restEq⟩ := exists_stringBody.1 within closed
  have noKind : progress.kindNext style.quote (body ++ style.quote :: after).head? = none := by
    have noSlash : (style.quote == '/') = false := by cases style with | single | double => rfl
    have noBacktick : style.quote ≠ '`' := by cases style with | single | double => decide
    have noComment : ∀ next, opensComment style.quote next = false := by
      intro next
      rw [opensComment, noSlash, Bool.false_and]
    unfold kindNext
    rcases reads with within | within | within
    all_goals
      rw [within]
      dsimp only
      rw [noComment, if_neg Bool.false_ne_true, if_neg noBacktick]
  intro string
  have stringEq : string.letters = style.quote :: (body ++ [style.quote]) := congrArg _ restEq
  refine ⟨⟨style, body, isBody, stringEq⟩, noKind, ⟨after, ?_⟩, ?_⟩
  · rw [stringEq]
    simp
  · rw [readAll, readAll_stringBody isBody within, code_readAll, read_quote reads, stringEq]
    refine ⟨_, congrArg (· ++ _) ?_⟩
    simp [code, pass, keep, goOn, remember]

theorem position_read (tracked : Tracks read progress) :
    (progress.read context letter next).position = progress.position + letter.utf8Size := by
  rw [(tracked.step context letter next).laid.position_eq, tracked.laid.position_eq,
    byteLength_append, byteLength_cons, byteLength_nil, Nat.add_zero]

theorem mem_stringsOver_cons :
    string ∈ progress.stringsOver context (letter :: rest) ↔
      (progress.beginsString context letter rest.head? = true ∧
        string = progress.stringHere context letter rest) ∨
      string ∈ (progress.read context letter rest.head?).stringsOver context rest := by
  rw [stringsOver]
  cases progress.beginsString context letter rest.head? with
  | true => rw [if_pos rfl, List.mem_cons, eq_self_iff_true, true_and]
  | false =>
      rw [if_neg Bool.false_ne_true]
      simp only [Bool.false_eq_true, false_and, false_or]

/-- The strings that follow begin behind the string that is read. -/
theorem le_start_of_mem_stringsOver (tracked : Tracks read progress)
    (member : string ∈ progress.stringsOver context letters) :
    progress.position + byteLength (progress.stringRest context letters) ≤ string.start := by
  induction letters generalizing read progress with
  | nil => exact absurd member List.not_mem_nil
  | cons letter rest inductionHypothesis =>
      rcases mem_stringsOver_cons.mp member with ⟨begins, rfl⟩ | later
      · have outside : progress.within.quote?.isSome = false := by
          rw [beginsString, Bool.and_eq_true, Option.isNone_iff_eq_none] at begins
          rw [begins.1]
          rfl
        rw [stringRest, outside, if_neg Bool.false_ne_true]
        exact Nat.le_refl _
      · have behind := inductionHypothesis (tracked.step context letter rest.head?) later
        rw [position_read tracked] at behind
        rw [stringRest]
        split_ifs
        · rw [byteLength_cons]
          omega
        · rw [byteLength_nil]
          omega

/-- The strings of a line stand one behind the other. -/
theorem pairwise_stringsOver (tracked : Tracks read progress) (context : LineContext)
    (letters : List Char) :
    (progress.stringsOver context letters).Pairwise fun first second =>
      first.stop ≤ second.start := by
  induction letters generalizing read progress with
  | nil => exact .nil
  | cons letter rest inductionHypothesis =>
      have stepped := tracked.step context letter rest.head?
      rw [stringsOver]
      split_ifs
      · refine List.pairwise_cons.mpr ⟨fun later member => ?_, inductionHypothesis stepped⟩
        have behind := le_start_of_mem_stringsOver stepped member
        rw [position_read tracked] at behind
        simp only [stringHere, byteLength_cons]
        omega
      · exact inductionHypothesis stepped

/-- The strings of a line that ends none of them are spans of the line and of its code. -/
theorem isIn_of_mem_stringsOver (tracked : Tracks read progress)
    (closed : (progress.readAll context letters).within.quote? = none)
    (member : string ∈ progress.stringsOver context letters) :
    IsQuoted string.letters ∧ string.IsIn (read ++ letters) ∧
      string.IsIn (progress.readAll context letters).code := by
  induction letters generalizing read progress with
  | nil => exact absurd member List.not_mem_nil
  | cons letter rest inductionHypothesis =>
      rcases mem_stringsOver_cons.mp member with ⟨begins, rfl⟩ | later
      · obtain ⟨quoted, _, ⟨after, textEq⟩, shown, codeEq⟩ := passes_stringHere begins closed
        have measured : progress.position = byteLength progress.code := by
          rw [tracked.laid.code_eq, byteLength_blankWhere, tracked.laid.position_eq]
        refine ⟨quoted, ⟨read, after, ?_, tracked.laid.position_eq, rfl⟩,
          ⟨progress.code, shown, codeEq, measured, rfl⟩⟩
        rw [textEq, List.append_assoc]
      · have shown := inductionHypothesis (tracked.step context letter rest.head?) closed later
        rwa [List.append_assoc] at shown

/-- No region covers the first quote of a string. -/
theorem kind_of_mem_stringsOver (tracked : Tracks read progress)
    (closed : (progress.readAll context letters).within.quote? = none)
    (member : string ∈ progress.stringsOver context letters) :
    ∃ offset, string.start = progress.position + offset ∧
      (progress.kindsOver context letters)[offset]? = some none := by
  induction letters generalizing read progress with
  | nil => exact absurd member List.not_mem_nil
  | cons letter rest inductionHypothesis =>
      rw [kindsOver]
      rcases mem_stringsOver_cons.mp member with ⟨begins, rfl⟩ | later
      · have noKind := (passes_stringHere begins closed).2.1
        exact ⟨0, rfl, getElem?_replicate_append.mpr (Or.inl ⟨noKind, letter.utf8Size_pos⟩)⟩
      · obtain ⟨offset, startEq, found⟩ :=
          inductionHypothesis (tracked.step context letter rest.head?) closed later
        rw [position_read tracked] at startEq
        exact ⟨letter.utf8Size + offset, by omega,
          getElem?_replicate_append.mpr (Or.inr ⟨offset, rfl, found⟩)⟩

end Progress

/-! ## The strings of a document -/

namespace Document

/-- The string literals that are passed on a line. -/
def stringsOn (document : Document) (index : Nat) : List Span :=
  (document.scannerBefore index).begin.stringsOver
    ⟨index, (document.scannerBefore index).previous⟩ (document.line index)

/-- Every string ends on its line. -/
def ClosesStrings (document : Document) : Prop :=
  ∀ index < document.lineCount,
    ((document.scannerBefore index).progressOver index (document.line index)).within.quote? = none

instance (document : Document) : Decidable document.ClosesStrings :=
  inferInstanceAs (Decidable (∀ index < document.lineCount, _))

variable {document : Document} {index : Nat} {line : ScannedLine} {string : Span}

theorem pairwise_stringsOn (document : Document) (index : Nat) :
    (document.stringsOn index).Pairwise fun first second => first.stop ≤ second.start :=
  Progress.pairwise_stringsOver (Scanner.tracks_begin _) _ _

theorem isIn_of_mem_stringsOn (closes : document.ClosesStrings)
    (found : document.scan[index]? = some line) (member : string ∈ document.stringsOn index) :
    IsQuoted string.letters ∧ string.IsIn line.text ∧ string.IsIn line.code := by
  obtain ⟨isLine, rfl⟩ := eq_scanLine_of_getElem?_scan found
  have closed := closes index (line_eq_of_getElem? isLine).1
  exact Progress.isIn_of_mem_stringsOver (Scanner.tracks_begin _) closed member

theorem isInTemplate_of_mem_stringsOn (closes : document.ClosesStrings)
    (found : document.scan[index]? = some line) (member : string ∈ document.stringsOn index) :
    line.isInTemplate string.start = false := by
  obtain ⟨isLine, rfl⟩ := eq_scanLine_of_getElem?_scan found
  have closed := closes index (line_eq_of_getElem? isLine).1
  obtain ⟨offset, startEq, noKind⟩ :=
    Progress.kind_of_mem_stringsOver (Scanner.tracks_begin _) closed member
  have sameOffset : string.start = offset := startEq.trans (Nat.zero_add offset)
  rw [ScannedLine.isInTemplate, Bool.eq_false_iff, Ne, Scanner.isIn_scanLine, sameOffset]
  intro inTemplate
  cases noKind.symm.trans inTemplate

end Document

end ScriptLint
