import ScriptLint.Proofs.Source.Reading

/-!
# Template literals

A template literal is a body between backticks, spread over any number of lines. Its body consists
of characters, escapes and interpolations, and what an interpolation holds has balanced braces. The
number of open braces is all that is remembered of it from one line to the next, so a body is read
like any text that returns to the depth at which it began.

The main statement says that a literal that begins in code ends in code, with the delimiters that
were open before it, and that its bytes are exactly those that a template region holds, from the end
of the code before it up to the next backtick behind it.
-/

namespace ScriptLint

open Text

/-- What an interpolation holds: balanced braces and escapes among other characters. A backslash at
the end of a line escapes nothing. -/
inductive IsContent : List Char → Prop where
  | nil : IsContent []
  | letter {letter : Char} {rest : List Char} (ordinary : letter ∉ ['`', '\\', '\x7b', '\x7d'])
      (content : IsContent rest) : IsContent (letter :: rest)
  | escape {letter : Char} {rest : List Char} (inLine : letter ≠ '\n') (content : IsContent rest) :
      IsContent ('\\' :: letter :: rest)
  | backslash {rest : List Char} (content : IsContent ('\n' :: rest)) :
      IsContent ('\\' :: '\n' :: rest)
  | braces {inner rest : List Char} (nested : IsContent inner) (content : IsContent rest) :
      IsContent ('\x7b' :: (inner ++ '\x7d' :: rest))

/-- What stands between the backticks of a template literal. A dollar sign in front of an opening
brace begins an interpolation. -/
inductive IsTemplateBody : List Char → Prop where
  | nil : IsTemplateBody []
  | letter {letter : Char} {rest : List Char} (ordinary : letter ∉ ['`', '\\'])
      (noOpening : letter = '$' → rest.head? ≠ some '\x7b') (body : IsTemplateBody rest) :
      IsTemplateBody (letter :: rest)
  | escape {letter : Char} {rest : List Char} (inLine : letter ≠ '\n')
      (body : IsTemplateBody rest) : IsTemplateBody ('\\' :: letter :: rest)
  | backslash {rest : List Char} (body : IsTemplateBody ('\n' :: rest)) :
      IsTemplateBody ('\\' :: '\n' :: rest)
  | interpolation {inner rest : List Char} (content : IsContent inner)
      (body : IsTemplateBody rest) :
      IsTemplateBody ('$' :: '\x7b' :: (inner ++ '\x7d' :: rest))

/-- A template literal with its backticks. -/
def IsTemplate (letters : List Char) : Prop :=
  ∃ body, IsTemplateBody body ∧ letters = '`' :: (body ++ ['`'])

namespace Reading

variable {reading between reached : Reading} {letter next : Char} {front back rest : List Char}
  {depth : Nat} {stack : List Frame}

/-- Whatever follows them, characters belong to a template literal and lead from one place to
another one. -/
def Covers (reading : Reading) (front : List Char) (reached : Reading) : Prop :=
  ∀ rest, reading.Passes front (filled (some .template) front) rest reached

namespace Covers

theorem nil : reading.Covers [] reading := fun _ => .nil

theorem append (first : reading.Covers front between) (second : between.Covers back reached) :
    reading.Covers (front ++ back) reached := by
  intro rest
  rw [filled_append]
  exact (first (back ++ rest)).append (second rest)

/-- A character that does not look ahead. -/
theorem single (isTemplate : ∀ next, reading.kindNext letter next = some .template)
    (stepped : ∀ next, reading.read letter next = between) : reading.Covers [letter] between := by
  intro rest
  rw [filled_cons]
  refine .cons (isTemplate _) ?_
  rw [stepped]
  exact .nil

/-- A character that looks at the next one. -/
theorem cons (isTemplate : reading.kindNext letter back.head? = some .template)
    (stepped : reading.read letter back.head? = between) (nonempty : back ≠ [])
    (covers : between.Covers back reached) : reading.Covers (letter :: back) reached := by
  intro rest
  have ahead : (back ++ rest).head? = back.head? := List.head?_append_of_ne_nil _ nonempty
  rw [filled_cons]
  refine .cons (ahead ▸ isTemplate) ?_
  rw [ahead, stepped]
  exact covers rest

end Covers

/-- The place behind a character of the line that changes nothing. -/
def keep (reading : Reading) (letter : Char) : Reading :=
  { reading with progress := reading.progress.keep letter }

/-- The place behind a character of the line that changes what is read. -/
def keepOn (reading : Reading) (letter : Char) (within : Within) : Reading :=
  { reading with progress := (reading.progress.keep letter).goOn within }

/-- A template literal is read at a depth, with a stack of delimiters around it. -/
structure IsInTemplate (reading : Reading) (depth : Nat) (stack : List Frame) : Prop where
  within_eq : reading.progress.within = .template depth
  stack_eq : reading.progress.stack = stack

namespace IsInTemplate

theorem kindNext_eq (inside : reading.IsInTemplate depth stack) (letter : Char)
    (next : Option Char) : reading.kindNext letter next = some .template := by
  by_cases feed : letter = '\n'
  · rw [feed, kindNext_feed, inside.within_eq]
    rfl
  · rw [kindNext_of_ne feed, Progress.kindNext, inside.within_eq]
    rfl

theorem keep (inside : reading.IsInTemplate depth stack) (letter : Char) :
    (reading.keep letter).IsInTemplate depth stack := ⟨inside.within_eq, inside.stack_eq⟩

theorem keepOn (inside : reading.IsInTemplate depth stack) (letter : Char) (further : Nat) :
    (reading.keepOn letter (.template further)).IsInTemplate further stack :=
  ⟨rfl, inside.stack_eq⟩

theorem read_feed (inside : reading.IsInTemplate depth stack) (next : Option Char) :
    (reading.read '\n' next).IsInTemplate depth stack where
  within_eq := by
    rw [within_read_feed, inside.within_eq]
    rfl
  stack_eq := by rw [stack_read_feed, inside.stack_eq]

theorem read_eq (inside : reading.IsInTemplate depth stack) (inLine : letter ≠ '\n')
    (next : Option Char) :
    reading.read letter next =
      { reading with progress := reading.progress.readTemplate depth letter next } := by
  rw [read_of_ne inLine, Progress.read, inside.within_eq]

theorem read_ordinary (inside : reading.IsInTemplate depth stack) (inLine : letter ≠ '\n')
    (noEscape : letter ≠ '\\') {next : Option Char}
    (noOpening : ¬ (letter = '$' ∧ next = some '\x7b'))
    (noBrace : 0 < depth → letter ≠ '\x7b' ∧ letter ≠ '\x7d') (noEnd : depth = 0 → letter ≠ '`') :
    reading.read letter next = reading.keep letter := by
  have noNesting : ¬ (letter = '\x7b' ∧ 0 < depth) := fun both => (noBrace both.2).1 both.1
  have noUnnesting : ¬ (letter = '\x7d' ∧ 0 < depth) := fun both => (noBrace both.2).2 both.1
  have noClosing : ¬ (letter = '`' ∧ depth = 0) := fun both => noEnd both.2 both.1
  rw [inside.read_eq inLine]
  simp only [Progress.readTemplate, Bool.and_eq_true, beq_iff_eq, decide_eq_true_eq, noEscape,
    noOpening, noNesting, noUnnesting, noClosing, if_false]
  rfl

theorem read_backslash (inside : reading.IsInTemplate depth stack) (next : Option Char) :
    reading.read '\\' next = reading.keepOn '\\' (.held (.template depth)) := by
  rw [inside.read_eq (by decide)]
  rfl

theorem read_dollar (inside : reading.IsInTemplate depth stack) :
    reading.read '$' (some '\x7b') = reading.keepOn '$' (.held (.template (depth + 1))) := by
  rw [inside.read_eq (by decide)]
  rfl

theorem read_openBrace (inside : reading.IsInTemplate (depth + 1) stack) (next : Option Char) :
    reading.read '\x7b' next = reading.keepOn '\x7b' (.template (depth + 2)) := by
  rw [inside.read_eq (by decide)]
  rfl

theorem read_closeBrace (inside : reading.IsInTemplate (depth + 1) stack) (next : Option Char) :
    reading.read '\x7d' next = reading.keepOn '\x7d' (.template depth) := by
  rw [inside.read_eq (by decide)]
  rfl

end IsInTemplate

theorem read_held {within : Within} (held : reading.progress.within = .held within)
    (inLine : letter ≠ '\n') (next : Option Char) :
    reading.read letter next = reading.keepOn letter within := by
  rw [read_of_ne inLine, Progress.read, held]
  rfl

theorem kindNext_held (held : reading.progress.within = .held (.template depth))
    (letter : Char) (next : Option Char) : reading.kindNext letter next = some .template := by
  by_cases feed : letter = '\n'
  · rw [feed, kindNext_feed, held]
    rfl
  · rw [kindNext_of_ne feed, Progress.kindNext, held]
    rfl

/-- Two places are alike for the character behind the next one, whatever was meant to be held
there. -/
theorem passes_merge {kept : Reading} {kind : Option RegionKind} (rest : List Char)
    (firstKind : reading.kindNext letter (some next) = kind)
    (sameRead : (reading.read letter (some next)).read next rest.head? =
      kept.read next rest.head?)
    (sameKind : (reading.read letter (some next)).kindNext next rest.head? =
      kept.kindNext next rest.head?) :
    reading.Passes [letter] (filled kind [letter]) (next :: rest) kept where
  readAll_eq := by
    rw [List.singleton_append, readAll, List.head?_cons, readAll, sameRead, readAll]
  kindsOver_eq := by
    rw [List.singleton_append, kindsOver, List.head?_cons, firstKind, kindsOver, sameRead,
      sameKind, kindsOver, filled_cons]
    simp [filled]

namespace IsInTemplate

theorem covers_feed (inside : reading.IsInTemplate depth stack) :
    ∃ reached, reading.Covers ['\n'] reached ∧ reached.IsInTemplate depth stack :=
  ⟨_, .single (inside.kindNext_eq '\n') (fun _ => Reading.read_feed), Reading.read_feed ▸
    inside.read_feed none⟩

/-- Inside an interpolation a dollar sign means nothing: a brace behind it counts as one anyway. -/
theorem covers_ordinary (inside : reading.IsInTemplate (depth + 1) stack)
    (ordinary : letter ∉ ['`', '\\', '\x7b', '\x7d']) :
    ∃ reached, reading.Covers [letter] reached ∧ reached.IsInTemplate (depth + 1) stack := by
  have different : letter ≠ '`' ∧ letter ≠ '\\' ∧ letter ≠ '\x7b' ∧ letter ≠ '\x7d' := by
    simpa using ordinary
  obtain ⟨noBacktick, noEscape, noOpen, noClose⟩ := different
  by_cases feed : letter = '\n'
  · rw [feed]
    exact inside.covers_feed
  · have kept : ∀ next, ¬ (letter = '$' ∧ next = some '\x7b') →
        reading.read letter next = reading.keep letter := fun next noOpening =>
      inside.read_ordinary feed noEscape noOpening (fun _ => ⟨noOpen, noClose⟩) nofun
    refine ⟨reading.keep letter, fun rest => ?_, inside.keep letter⟩
    by_cases opens : letter = '$' ∧ rest.head? = some '\x7b'
    · obtain ⟨rfl, brace⟩ := opens
      obtain ⟨others, rfl⟩ := List.head?_eq_some_iff.mp brace
      have held : (reading.read '$' (some '\x7b')).progress.within =
          .held (.template (depth + 2)) := by
        rw [inside.read_dollar]
        rfl
      refine passes_merge others (inside.kindNext_eq _ _) ?_ ?_
      · rw [read_held held (by decide), (inside.keep '$').read_openBrace, inside.read_dollar]
        rfl
      · rw [kindNext_held held, (inside.keep '$').kindNext_eq]
    · have passes : reading.Passes [letter] _ rest (reading.read letter rest.head?) :=
        .cons (inside.kindNext_eq letter rest.head?) .nil
      rw [kept _ opens] at passes
      rw [filled_cons]
      exact passes

theorem covers_escape (inside : reading.IsInTemplate depth stack) (inLine : letter ≠ '\n') :
    ∃ reached, reading.Covers ['\\', letter] reached ∧ reached.IsInTemplate depth stack := by
  have held : (reading.keepOn '\\' (.held (.template depth))).progress.within =
      .held (.template depth) := rfl
  have first : reading.Covers ['\\'] (reading.keepOn '\\' (.held (.template depth))) :=
    .single (inside.kindNext_eq _) inside.read_backslash
  have second : (reading.keepOn '\\' (.held (.template depth))).Covers [letter]
      ((reading.keepOn '\\' (.held (.template depth))).keepOn letter (.template depth)) :=
    .single (kindNext_held held _) (read_held held inLine)
  exact ⟨_, first.append second, rfl, inside.stack_eq⟩

/-- A backslash at the end of a line is forgotten with the line. -/
theorem covers_backslash (inside : reading.IsInTemplate depth stack)
    (covers : (reading.keep '\\').Covers ('\n' :: back) reached) :
    reading.Covers ('\\' :: '\n' :: back) reached := by
  intro rest
  have stepped := inside.read_backslash (some '\n')
  have first : reading.Passes ['\\'] (filled (some .template) ['\\']) ('\n' :: (back ++ rest))
      (reading.keep '\\') := by
    refine passes_merge (back ++ rest) (inside.kindNext_eq _ _) ?_ ?_
    · rw [stepped, Reading.read_feed, Reading.read_feed, leave, leave, Scanner.behindLine,
        Scanner.behindLine, (inside.keep '\\').within_eq]
      rfl
    · rw [stepped, kindNext_held rfl, (inside.keep '\\').kindNext_eq]
  have whole := first.append (covers rest)
  rw [← filled_append] at whole
  exact whole

theorem covers_openBrace (inside : reading.IsInTemplate (depth + 1) stack) :
    ∃ reached, reading.Covers ['\x7b'] reached ∧ reached.IsInTemplate (depth + 2) stack :=
  ⟨_, .single (inside.kindNext_eq _) inside.read_openBrace, inside.keepOn _ _⟩

theorem covers_closeBrace (inside : reading.IsInTemplate (depth + 1) stack) :
    ∃ reached, reading.Covers ['\x7d'] reached ∧ reached.IsInTemplate depth stack :=
  ⟨_, .single (inside.kindNext_eq _) inside.read_closeBrace, inside.keepOn _ _⟩

theorem covers_opening (inside : reading.IsInTemplate depth stack) :
    ∃ reached, reading.Covers ['$', '\x7b'] reached ∧ reached.IsInTemplate (depth + 1) stack := by
  have held : (reading.keepOn '$' (.held (.template (depth + 1)))).progress.within =
      .held (.template (depth + 1)) := rfl
  have second : (reading.keepOn '$' (.held (.template (depth + 1)))).Covers ['\x7b']
      ((reading.keepOn '$' (.held (.template (depth + 1)))).keepOn '\x7b'
        (.template (depth + 1))) :=
    .single (kindNext_held held _) (read_held held (by decide))
  exact ⟨_, .cons (inside.kindNext_eq _ _) inside.read_dollar (List.cons_ne_nil _ _) second, rfl,
    inside.stack_eq⟩

end IsInTemplate

/-- A backtick in code opens a literal. -/
theorem covers_open (reads : reading.progress.ReadsCode) :
    ∃ reached, reading.Covers ['`'] reached ∧ reached.IsInTemplate 0 reading.progress.stack := by
  have opened : ∀ next, reading.progress.read reading.context '`' next =
      ((reading.progress.openRegion .template).keep '`').goOn (.template 0) := by
    intro next
    rcases reads with within | within | within
    · rw [Progress.read, within]
      rfl
    · rw [Progress.read, within]
      rfl
    · rw [Progress.read, within]
      rfl
  refine ⟨{ reading with
    progress := ((reading.progress.openRegion .template).keep '`').goOn (.template 0) },
    .single (fun next => ?_) (fun next => ?_), rfl, rfl⟩
  · rw [kindNext_of_ne (by decide)]
    rcases reads with within | within | within
    · rw [Progress.kindNext, within]
      rfl
    · rw [Progress.kindNext, within]
      rfl
    · rw [Progress.kindNext, within]
      rfl
  · rw [read_of_ne (by decide), opened]

/-- Outside interpolations a backtick ends the literal. -/
theorem IsInTemplate.covers_close (inside : reading.IsInTemplate 0 stack) :
    ∃ reached, reading.Covers ['`'] reached ∧ reached.progress.within = .plain ∧
      reached.progress.stack = stack := by
  have closed : ∀ next, reading.read '`' next =
      { reading with progress :=
          ((reading.progress.keep '`').closeRegion.remember .value).goOn .plain } := by
    intro next
    rw [inside.read_eq (by decide)]
    rfl
  refine ⟨_, .single (inside.kindNext_eq _) closed, rfl, ?_⟩
  rw [← inside.stack_eq]
  exact Progress.stack_closeRegion

end Reading

variable {reading : Reading} {front : List Char} {depth : Nat} {stack : List Frame}

/-- What an interpolation holds leads back to the depth at which it began. -/
theorem IsContent.covers (content : IsContent front)
    (inside : reading.IsInTemplate (depth + 1) stack) :
    ∃ reached, reading.Covers front reached ∧ reached.IsInTemplate (depth + 1) stack := by
  induction content generalizing reading depth with
  | nil => exact ⟨reading, .nil, inside⟩
  | letter ordinary content inductionHypothesis =>
      obtain ⟨between, first, betweenInside⟩ := inside.covers_ordinary ordinary
      obtain ⟨reached, others, final⟩ := inductionHypothesis betweenInside
      exact ⟨reached, first.append others, final⟩
  | escape inLine content inductionHypothesis =>
      obtain ⟨between, first, betweenInside⟩ := inside.covers_escape inLine
      obtain ⟨reached, others, final⟩ := inductionHypothesis betweenInside
      exact ⟨reached, first.append others, final⟩
  | backslash content inductionHypothesis =>
      obtain ⟨reached, others, final⟩ := inductionHypothesis (inside.keep '\\')
      exact ⟨reached, inside.covers_backslash others, final⟩
  | braces nested content nestedHypothesis contentHypothesis =>
      obtain ⟨opened, opening, openedInside⟩ := inside.covers_openBrace
      obtain ⟨atEnd, inner, endInside⟩ := nestedHypothesis openedInside
      obtain ⟨closed, closing, closedInside⟩ := endInside.covers_closeBrace
      obtain ⟨reached, others, final⟩ := contentHypothesis closedInside
      exact ⟨reached, opening.append (inner.append (closing.append others)), final⟩

/-- A body and the backtick behind it lead from the start of the body to code. -/
theorem IsTemplateBody.covers (body : IsTemplateBody front)
    (inside : reading.IsInTemplate 0 stack) :
    ∃ reached, reading.Covers (front ++ ['`']) reached ∧ reached.progress.within = .plain ∧
      reached.progress.stack = stack := by
  induction body generalizing reading with
  | nil => exact inside.covers_close
  | @letter letter rest ordinary noOpening body inductionHypothesis =>
      have different : letter ≠ '`' ∧ letter ≠ '\\' := by simpa using ordinary
      by_cases feed : letter = '\n'
      · obtain ⟨between, first, betweenInside⟩ := inside.covers_feed
        obtain ⟨reached, others, final⟩ := inductionHypothesis betweenInside
        rw [feed]
        exact ⟨reached, first.append others, final⟩
      · have ahead : ¬ (letter = '$' ∧ (rest ++ ['`']).head? = some '\x7b') := by
          rintro ⟨dollar, brace⟩
          cases rest with
          | nil => cases brace
          | cons next others => exact noOpening dollar brace
        have kept : reading.read letter (rest ++ ['`']).head? = reading.keep letter :=
          inside.read_ordinary feed different.2 ahead nofun fun _ => different.1
        obtain ⟨reached, others, final⟩ := inductionHypothesis (inside.keep letter)
        exact ⟨reached, .cons (inside.kindNext_eq _ _) kept (by simp) others, final⟩
  | escape inLine body inductionHypothesis =>
      obtain ⟨between, first, betweenInside⟩ := inside.covers_escape inLine
      obtain ⟨reached, others, final⟩ := inductionHypothesis betweenInside
      exact ⟨reached, first.append others, final⟩
  | backslash body inductionHypothesis =>
      obtain ⟨reached, others, final⟩ := inductionHypothesis (inside.keep '\\')
      exact ⟨reached, inside.covers_backslash others, final⟩
  | interpolation content body inductionHypothesis =>
      obtain ⟨opened, opening, openedInside⟩ := inside.covers_opening
      obtain ⟨atEnd, inner, endInside⟩ := content.covers openedInside
      obtain ⟨closed, closing, closedInside⟩ := endInside.covers_closeBrace
      obtain ⟨reached, others, final⟩ := inductionHypothesis closedInside
      refine ⟨reached, ?_, final⟩
      rw [List.cons_append, List.cons_append, List.append_assoc, List.cons_append]
      exact opening.append (inner.append (closing.append others))

/-- A literal leads from code to code and leaves the stack alone. -/
theorem IsTemplate.covers (isTemplate : IsTemplate front) (reads : reading.progress.ReadsCode) :
    ∃ reached, reading.Covers front reached ∧ reached.progress.within = .plain ∧
      reached.progress.stack = reading.progress.stack := by
  obtain ⟨text, body, rfl⟩ := isTemplate
  obtain ⟨between, opening, inside⟩ := reading.covers_open reads
  obtain ⟨reached, others, final⟩ := body.covers inside
  exact ⟨reached, opening.append others, final⟩

/-! ## Lines -/

/-- On a line of a text that consists of three parts, the bytes before the literal lie in template
literals as they do when the text ends there, those of the literal all lie in one, and those behind
it do not, up to the next backtick. -/
structure ScannedLine.MarksTemplate (line : ScannedLine) (start : Nat) (front : Progress)
    (before literal after : List Char) : Prop where
  before_eq : ∀ position < byteLength line.text, start + position < byteLength before →
    line.isInTemplate position = front.covers .template (start + position)
  literal_eq : ∀ position < byteLength line.text, byteLength before ≤ start + position →
    start + position < byteLength (before ++ literal) → line.isInTemplate position = true
  after_eq : ∀ position < byteLength line.text, byteLength (before ++ literal) ≤ start + position →
    start + position < byteLength (before ++ literal ++ after.takeWhile (· != '`')) →
      line.isInTemplate position = false

theorem Progress.standsAlone_backtick : Progress.StandsAlone (some '`') :=
  standsAlone_some (by decide)

/-- Code is of no template literal up to the next backtick. -/
theorem Progress.getElem?_kindsOver_takeWhile_ne {progress : Progress}
    (within : progress.within = .plain)
    (context : LineContext) (letters : List Char) {offset : Nat}
    (inside : offset < byteLength (letters.takeWhile (· != '`'))) :
    (progress.kindsOver context letters)[offset]? ≠ some (some .template) := by
  have alone : Progress.StandsAlone (letters.dropWhile (· != '`')).head? := by
    cases shape : letters.dropWhile (· != '`') with
    | nil => exact Progress.standsAlone_none
    | cons letter rest =>
        have stops := List.head?_dropWhile_not (· != '`') letters
        rw [shape] at stops
        have backtick : letter = '`' := by simpa using stops
        rw [backtick]
        exact Progress.standsAlone_backtick
  have noBacktick : '`' ∉ letters.takeWhile (· != '`') := fun member =>
    absurd (List.mem_takeWhile_imp member) (by decide)
  have outside : progress.within.region? ≠ some .template := by
    rw [within]
    nofun
  rw [← List.takeWhile_append_dropWhile (p := (· != '`')) (l := letters),
    Progress.kindsOver_append _ alone, List.getElem?_append_left]
  · exact Progress.getElem?_kindsOver_ne outside noBacktick offset
  · rwa [Progress.length_kindsOver]

/-- Behind a literal that begins in code, whatever follows it on its line, the scanner reads code
again with the delimiters that were open before it, and on every line the bytes of the literal, its
backticks included, are exactly those that it adds to the template regions. -/
theorem scanNumbered_template (scanner : Scanner) (index : Nat) {before literal : List Char}
    (isTemplate : IsTemplate literal) (inLine : '\n' ∉ before)
    (reads : (scanner.progressOver index before).ReadsCode) :
    ∃ (context : LineContext) (behind : Progress),
      behind.within = .plain ∧ behind.stack = (scanner.progressOver index before).stack ∧
      ∀ after, '\n' ∉ after →
        let text := before ++ literal ++ after
        let fed := numberedFrom index (splitOn '\n' text)
        (scanner.behind fed).mode = (behind.readAll context after).within.leave ∧
        (scanner.behind fed).stack = (behind.readAll context after).stack ∧
        (scanner.scanNumbered fed).map (·.text) = splitOn '\n' text ∧
        ∀ (place : Nat) (line : ScannedLine), (scanner.scanNumbered fed)[place]? = some line →
          ∃ start, (lineStarts text)[place]? = some start ∧
            line.MarksTemplate start (scanner.progressOver index before) before literal after := by
  obtain ⟨reached, covers, within, stack⟩ := isTemplate.covers
    (show ((scanner.reading index).along before).progress.ReadsCode from reads)
  refine ⟨reached.context, reached.progress, within, stack, fun after afterInLine => ?_⟩
  intro text fed
  have alone : Progress.StandsAlone (literal ++ after).head? := by
    obtain ⟨body, _, rfl⟩ := isTemplate
    exact Progress.standsAlone_backtick
  have textEq : text = before ++ (literal ++ after) := List.append_assoc before literal after
  have readEq : (scanner.reading index).readAll text = reached.along after := by
    rw [textEq, Reading.readAll_append inLine alone, (covers after).readAll_eq,
      Reading.readAll_line afterInLine]
  have kindsEq : (scanner.reading index).kindsOver text =
      scanner.kindsOn index before ++ (Reading.filled (some .template) literal ++
        reached.progress.kindsOver reached.context after) := by
    rw [textEq, Reading.kindsOver_append inLine alone, (covers after).kindsOver_eq,
      Reading.kindsOver_line afterInLine]
    rfl
  have beforeLength : (scanner.kindsOn index before).length = byteLength before :=
    Progress.length_kindsOver _ _ _
  have literalLength : (Reading.filled (some .template) literal).length = byteLength literal :=
    List.length_replicate
  have noFeed : ∀ line ∈ splitOn '\n' text, '\n' ∉ line := fun line => not_mem_of_mem_splitOn
  have behindEq : scanner.behind fed = (reached.along after).leave := by
    rw [behind_numberedFrom scanner index (splitOn_ne_nil '\n' text) noFeed, joinWith_splitOn,
      readEq]
  refine ⟨by rw [behindEq]; rfl, by rw [behindEq]; rfl, ?_, fun place line found => ?_⟩
  · rw [Scanner.map_text_scanNumbered]
    exact map_snd_numberedFrom index _
  · have asWritten : List.Forall₂ IsFedAs (splitOn '\n' text) (splitOn '\n' text) :=
      List.forall₂_same.mpr fun line _ => Or.inl rfl
    obtain ⟨start, startEq, kinds⟩ := isIn_scanNumbered scanner index asWritten noFeed found
    rw [joinWith_splitOn] at startEq kinds
    have isTemplateAt := kinds .template
    rw [kindsEq] at isTemplateAt
    refine ⟨start, startEq, ?_, ?_, ?_⟩
    · intro position inside isBefore
      rw [Bool.eq_iff_iff, ScannedLine.isInTemplate, isTemplateAt position inside,
        List.getElem?_append_left (by omega), Scanner.covers_progressOver]
    · intro position inside notBefore inLiteral
      rw [byteLength_append] at inLiteral
      rw [ScannedLine.isInTemplate, isTemplateAt position inside,
        List.getElem?_append_right (by omega), List.getElem?_append_left (by omega),
        Reading.filled, List.getElem?_replicate_of_lt (by omega)]
    · intro position inside isBehind beforeNext
      rw [byteLength_append] at isBehind beforeNext
      rw [byteLength_append] at beforeNext
      rw [← Bool.not_eq_true, ScannedLine.isInTemplate, isTemplateAt position inside,
        List.getElem?_append_right (by omega), List.getElem?_append_right (by omega)]
      exact Progress.getElem?_kindsOver_takeWhile_ne within _ _ (by omega)

/-- An argument of a call: an interpolation with nested braces, a backslash and a line break. -/
theorem scanNumbered_template_argument :
    IsTemplate ['`', '$', '\x7b', '\x7b', '\x7d', '\\', '\n', '\x7d', '`'] ∧
    '\n' ∉ "f(".toList ∧
    (({} : Scanner).progressOver 0 "f(".toList).ReadsCode ∧
    ∃ behind : Progress, behind.within = .plain ∧ behind.stack = [.paren false] := by
  have content : IsContent ('\x7b' :: ([] ++ '\x7d' :: ['\\', '\n'])) :=
    .braces .nil (.backslash (.letter (by decide) .nil))
  have body : IsTemplateBody
      ('$' :: '\x7b' :: (['\x7b', '\x7d', '\\', '\n'] ++ '\x7d' :: [])) :=
    .interpolation content .nil
  have isTemplate :
      IsTemplate ['`', '$', '\x7b', '\x7b', '\x7d', '\\', '\n', '\x7d', '`'] := ⟨_, body, rfl⟩
  have inLine : '\n' ∉ "f(".toList := by decide
  have reads : (({} : Scanner).progressOver 0 "f(".toList).ReadsCode := Or.inl rfl
  obtain ⟨_, behind, within, stack, _⟩ := scanNumbered_template {} 0 isTemplate inLine reads
  exact ⟨isTemplate, inLine, reads, behind, within, stack⟩

end ScriptLint
