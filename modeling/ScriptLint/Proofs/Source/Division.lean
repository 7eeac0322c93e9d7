import ScriptLint.Proofs.Source.Kinds
import ScriptLint.Proofs.Source.Plain

/-!
# Divisions

A slash divides or begins a regular expression, and the scanner decides by the last token. In a
statement that consists of one arithmetic expression every slash divides. It is taken for a division
unless its left operand ends in a step, `++` or `--`: of these the scanner remembers no more than a
mark, and a value may follow a mark.
-/

namespace ScriptLint

open Text

namespace Progress

variable {progress : Progress} {context : LineContext} {front back letters : List Char}

/-- Neither a literal nor a comment is read on the way. -/
def StaysInCode (context : LineContext) : List Char → Progress → Prop
  | [], progress => progress.IsInCode
  | letter :: rest, progress =>
      progress.IsInCode ∧ StaysInCode context rest (progress.read context letter rest.head?)

theorem StaysInCode.isInCode (stays : progress.StaysInCode context letters) :
    progress.IsInCode := by
  cases letters with
  | nil => exact stays
  | cons letter rest => exact stays.1

theorem staysInCode_append (alone : StandsAlone back.head?) :
    progress.StaysInCode context (front ++ back) ↔
      progress.StaysInCode context front ∧
        (progress.readAll context front).StaysInCode context back := by
  induction front generalizing progress with
  | nil => exact ⟨fun stays => ⟨stays.isInCode, stays⟩, And.right⟩
  | cons letter rest inductionHypothesis =>
      have same : progress.read context letter (rest ++ back).head? =
          progress.read context letter rest.head? := by
        cases rest with
        | nil => exact read_eq_of_standsAlone alone
        | cons next others => rfl
      rw [List.cons_append, StaysInCode, StaysInCode, readAll, same, inductionHypothesis,
        and_assoc]

theorem StaysInCode.reached (stays : progress.StaysInCode context letters) :
    (progress.readAll context letters).IsInCode := by
  have alone : StandsAlone ([] : List Char).head? := standsAlone_none
  rw [← List.append_nil letters, staysInCode_append alone] at stays
  exact stays.2

theorem IsInCode.readAll_eq (inCode : progress.IsInCode)
    (plain : ∀ letter ∈ letters, isPlain letter = true) :
    progress.readAll context letters = progress.skim context letters := by
  have read := @IsInCode.readAll_append _ context _ inCode plain []
  rwa [List.append_nil] at read

/-- Plain code stays in code. -/
theorem IsInCode.staysInCode_append (inCode : progress.IsInCode)
    (plain : ∀ letter ∈ letters, isPlain letter = true) (rest : List Char) :
    progress.StaysInCode context (letters ++ rest) ↔
      (progress.skim context letters).StaysInCode context rest := by
  induction letters generalizing progress with
  | nil => rfl
  | cons letter others inductionHypothesis =>
      rw [List.forall_mem_cons] at plain
      rw [List.cons_append, StaysInCode, inCode.read_eq plain.1,
        inductionHypothesis (.readCode plain.1) plain.2, skim_cons]
      exact and_iff_right inCode

theorem IsInCode.read_closing (inCode : progress.IsInCode) (next : Option Char) :
    progress.read context ')' next = progress.pop.keepMark ')' := by
  rw [inCode.read_eq (by decide)]
  rfl

theorem readAll_enclosed (inCode : progress.IsInCode)
    (stays : (progress.skim context ['(']).StaysInCode context letters) :
    progress.readAll context ('(' :: (letters ++ [')'])) =
      ((progress.skim context ['(']).readAll context letters).pop.keepMark ')' := by
  have alone : StandsAlone [')'].head? := standsAlone_some (by decide)
  have plain : ∀ letter ∈ ['('], isPlain letter = true :=
    List.forall_mem_singleton.mpr rfl
  calc
    progress.readAll context ('(' :: (letters ++ [')']))
      = (progress.skim context ['(']).readAll context (letters ++ [')']) :=
        inCode.readAll_append plain (letters ++ [')'])
    _ = ((progress.skim context ['(']).readAll context letters).readAll context [')'] :=
        readAll_append letters alone
    _ = _ := stays.reached.read_closing none

/-- A text stays in code exactly if a condition holds, and then the delimiters that were open stay
open over it. -/
structure Passes (context : LineContext) (letters : List Char) (condition : Prop)
    (progress : Progress) : Prop where
  stays_iff : progress.StaysInCode context letters ↔ condition
  stack_eq : condition → (progress.readAll context letters).stack = progress.stack

namespace Passes

variable {condition further : Prop}

theorem congr (passes : progress.Passes context letters condition) (same : condition ↔ further) :
    progress.Passes context letters further :=
  ⟨passes.stays_iff.trans same, fun holds => passes.stack_eq (same.mpr holds)⟩

theorem nil (inCode : progress.IsInCode) : progress.Passes context [] True :=
  ⟨iff_true_intro inCode, fun _ => rfl⟩

theorem append (first : progress.Passes context front condition) (alone : StandsAlone back.head?)
    (second : condition → (progress.readAll context front).Passes context back further) :
    progress.Passes context (front ++ back) (condition ∧ further) where
  stays_iff := by
    rw [staysInCode_append alone, first.stays_iff]
    exact and_congr_right fun holds => (second holds).stays_iff
  stack_eq := by
    rintro ⟨holds, furtherHolds⟩
    rw [readAll_append front alone, (second holds).stack_eq furtherHolds, first.stack_eq holds]

/-- What opens and closes nothing passes. -/
theorem inert (inCode : progress.IsInCode) (inert : ∀ letter ∈ letters, isInert letter = true)
    {rest : List Char} (following : (progress.skim context letters).Passes context rest condition) :
    progress.Passes context (letters ++ rest) condition := by
  have plain := forall_isPlain inert
  constructor
  · rw [inCode.staysInCode_append plain]
    exact following.stays_iff
  · intro holds
    rw [inCode.readAll_append plain, following.stack_eq holds, stack_skim_of_isInert inert]

/-- What passes behind an opening parenthesis passes in parentheses. -/
theorem enclosed (inCode : progress.IsInCode)
    (inner : (progress.skim context ['(']).Passes context letters condition) :
    progress.Passes context ('(' :: (letters ++ [')'])) condition := by
  have alone : StandsAlone [')'].head? := standsAlone_some (by decide)
  have plain : ∀ letter ∈ ['('], isPlain letter = true :=
    List.forall_mem_singleton.mpr rfl
  constructor
  · rw [← List.singleton_append, inCode.staysInCode_append plain, staysInCode_append alone,
      inner.stays_iff, and_iff_left_of_imp]
    intro holds
    have reached := (inner.stays_iff.mpr holds).reached
    refine ⟨reached, ?_⟩
    rw [reached.read_closing]
    exact Or.inl rfl
  · intro holds
    rw [readAll_enclosed inCode (inner.stays_iff.mpr holds)]
    exact congrArg List.tail (inner.stack_eq holds)

end Passes

end Progress

/-! ## Expressions -/

/-- A name or a number: a word of the scanner behind which no value is expected. -/
structure Operand where
  letters : List Char
  nonempty : letters ≠ []
  inside : ∀ letter ∈ letters, isIdentifier letter = true
  noValue : ∀ word ∈ valueWords, word.toList ≠ letters

/-- A binary operator. -/
inductive Operator where
  | add
  | subtract
  | multiply
  | divide
  | remainder
  deriving DecidableEq, Repr

/-- The character of an operator. -/
def Operator.mark : Operator → Char
  | add => '+'
  | subtract => '-'
  | multiply => '*'
  | divide => '/'
  | remainder => '%'

/-- A step up or down. -/
inductive Step where
  | up
  | down
  deriving DecidableEq, Repr

/-- The character that a step is written with, twice. -/
def Step.mark : Step → Char
  | up => '+'
  | down => '-'

mutual

/-- An arithmetic expression. -/
inductive Expression where
  | operand (operand : Operand)
  | enclosed (inner : Expression)
  | call (callee : Expression) (arguments : Arguments)
  | binary (left : Expression) (operator : Operator) (right : Expression)
  | stepBefore (step : Step) (inner : Expression)
  | stepAfter (inner : Expression) (step : Step)

/-- The arguments of a call, with the number of blanks behind each comma. -/
inductive Arguments where
  | none
  | last (argument : Expression)
  | more (argument : Expression) (blanks : Nat) (others : Arguments)

end

mutual

/-- The text of an expression. -/
def Expression.text : Expression → List Char
  | .operand operand => operand.letters
  | .enclosed inner => '(' :: (inner.text ++ [')'])
  | .call callee arguments => callee.text ++ '(' :: (arguments.text ++ [')'])
  | .binary left operator right => left.text ++ ' ' :: operator.mark :: ' ' :: right.text
  | .stepBefore step inner => step.mark :: step.mark :: inner.text
  | .stepAfter inner step => inner.text ++ [step.mark, step.mark]

/-- The text of arguments. -/
def Arguments.text : Arguments → List Char
  | .none => []
  | .last argument => argument.text
  | .more argument blanks others =>
      argument.text ++ ',' :: (List.replicate blanks ' ' ++ others.text)

end

/-- The line of a statement that consists of an expression. -/
def Expression.statement (expression : Expression) : List Char := expression.text ++ [';']

/-- The text of the expression ends in a step. -/
def Expression.endsInStep : Expression → Bool
  | .operand _ | .enclosed _ | .call _ _ => false
  | .binary _ _ right => right.endsInStep
  | .stepBefore _ inner => inner.endsInStep
  | .stepAfter _ _ => true

mutual

/-- No left operand of a division ends in a step. -/
def Expression.DividesNoStep : Expression → Prop
  | .operand _ => True
  | .enclosed inner => inner.DividesNoStep
  | .call callee arguments => callee.DividesNoStep ∧ arguments.DivideNoStep
  | .binary left operator right =>
      left.DividesNoStep ∧ (operator = .divide → left.endsInStep = false) ∧ right.DividesNoStep
  | .stepBefore _ inner => inner.DividesNoStep
  | .stepAfter inner _ => inner.DividesNoStep

/-- No argument divides what ends in a step. -/
def Arguments.DivideNoStep : Arguments → Prop
  | .none => True
  | .last argument => argument.DividesNoStep
  | .more argument _ others => argument.DividesNoStep ∧ others.DivideNoStep

end

/-! ## Operators -/

theorem Operator.isInert_mark {operator : Operator} (other : operator ≠ .divide) :
    isInert operator.mark = true := by
  cases operator with
  | divide => exact absurd rfl other
  | add => decide
  | subtract => decide
  | multiply => decide
  | remainder => decide

theorem Step.isInert_of_mem (step : Step) :
    ∀ letter ∈ [step.mark, step.mark], isInert letter = true := by
  apply List.all_eq_true.mp
  cases step with
  | up => decide
  | down => decide

namespace Progress

variable {progress : Progress} {context : LineContext} {operator : Operator} {rest : List Char}

theorem IsInCode.read_blank (inCode : progress.IsInCode) (next : Option Char) :
    progress.read context ' ' next = progress.readCode context ' ' none :=
  inCode.read_eq (by decide) next

theorem IsInCode.readCode_blank : (progress.readCode context ' ' none).IsInCode := Or.inl rfl

/-- In front of a blank an operator opens no comment. -/
theorem IsInCode.read_operator (inCode : progress.IsInCode) :
    progress.read context operator.mark (some ' ') =
      progress.readCode context operator.mark none := by
  have noComment : opensComment operator.mark (some ' ') = false := by
    cases operator with
    | divide => rfl
    | add => rfl
    | subtract => rfl
    | multiply => rfl
    | remainder => rfl
  rw [← readCode_of_not_opensComment noComment]
  rcases inCode with within | within
  · rw [read, within]
  · rw [read, within]

theorem readCode_slash :
    progress.readCode context '/' none =
      if progress.last.allowsRegex then ((progress.keep '/').remember .value).goOn (.regex false)
      else progress.keepMark '/' := rfl

/-- Behind an operator code goes on, unless it is a slash and a value may follow. -/
theorem isInCode_readCode_operator :
    (progress.readCode context operator.mark none).IsInCode ↔
      (operator = .divide → progress.last.allowsRegex = false) := by
  by_cases slash : operator = .divide
  · subst slash
    rw [imp_iff_right rfl, Operator.mark, readCode_slash]
    by_cases allows : progress.last.allowsRegex = true
    · rw [if_pos allows, allows]
      constructor
      · rintro (within | within)
        · cases within
        · cases within
      · exact nofun
    · rw [if_neg allows]
      exact iff_of_true (Or.inl rfl) (Bool.eq_false_iff.mpr allows)
  · have inert := Operator.isInert_mark slash
    exact iff_of_true (.readCode (isPlain_of_isInert inert)) fun same => absurd same slash

theorem readAll_operator (inCode : progress.IsInCode)
    (divides : operator = .divide → progress.last.allowsRegex = false) :
    progress.readAll context (' ' :: operator.mark :: ' ' :: rest) =
      (progress.skim context [' ', operator.mark, ' ']).readAll context rest := by
  have behind : ((progress.readCode context ' ' none).readCode context operator.mark
      none).IsInCode := isInCode_readCode_operator.mpr divides
  rw [readAll, readAll, readAll, inCode.read_blank, List.head?_cons,
    IsInCode.readCode_blank.read_operator, behind.read_blank]
  rfl

theorem staysInCode_operator (inCode : progress.IsInCode) :
    progress.StaysInCode context (' ' :: operator.mark :: ' ' :: rest) ↔
      (operator = .divide → progress.last.allowsRegex = false) ∧
        (progress.skim context [' ', operator.mark, ' ']).StaysInCode context rest := by
  rw [StaysInCode, StaysInCode, StaysInCode, inCode.read_blank, List.head?_cons,
    IsInCode.readCode_blank.read_operator, isInCode_readCode_operator,
    and_iff_right inCode, and_iff_right IsInCode.readCode_blank]
  apply and_congr_right
  intro divides
  have behind : ((progress.readCode context ' ' none).readCode context operator.mark
      none).IsInCode := isInCode_readCode_operator.mpr divides
  rw [behind.read_blank]
  rfl

theorem stack_skim_operator (operator : Operator) :
    (progress.skim context [' ', operator.mark, ' ']).stack = progress.stack := by
  by_cases slash : operator = .divide
  · have stack : ((progress.readCode context ' ' none).readCode context '/' none).stack =
        progress.stack := by
      rw [readCode_slash]
      split_ifs
      · rfl
      · rfl
    rw [slash]
    exact stack
  · apply stack_skim_of_isInert
    have inert := Operator.isInert_mark slash
    have blank : isInert ' ' = true := by decide
    simp [inert, blank]

theorem Passes.behindOperator {condition : Prop} (inCode : progress.IsInCode)
    (following : (progress.skim context [' ', operator.mark, ' ']).Passes context rest condition) :
    progress.Passes context (' ' :: operator.mark :: ' ' :: rest)
      ((operator = .divide → progress.last.allowsRegex = false) ∧ condition) where
  stays_iff := (staysInCode_operator inCode).trans (and_congr_right' following.stays_iff)
  stack_eq := by
    rintro ⟨divides, holds⟩
    rw [readAll_operator inCode divides, following.stack_eq holds, stack_skim_operator]

end Progress

/-! ## Expressions that are read -/

/-- What reading an expression comes to: it stays in code exactly if it divides no step, and then a
value may follow exactly if it ends in a step. -/
structure Expression.IsRead (context : LineContext) (progress : Progress)
    (expression : Expression) : Prop where
  passes : progress.Passes context expression.text expression.DividesNoStep
  last_eq : expression.DividesNoStep →
    (progress.readAll context expression.text).last.allowsRegex = expression.endsInStep

namespace Expression.IsRead

variable {context : LineContext} {progress : Progress} {inner : Expression}

theorem operand (operand : Operand) (plain : progress.within = .plain) :
    (Expression.operand operand).IsRead context progress := by
  have inCode : progress.IsInCode := Or.inl plain
  have inert : ∀ letter ∈ operand.letters, isInert letter = true :=
    fun letter member => isInert_of_isIdentifier (operand.inside letter member)
  have isPlain := forall_isPlain inert
  constructor
  · have nothing : (progress.skim context operand.letters).Passes context [] True :=
      .nil (inCode.skim isPlain)
    have passes := Progress.Passes.inert inCode inert nothing
    rwa [List.append_nil] at passes
  · intro _
    have word := (@Progress.last_skim_of_isIdentifier _ context _ plain operand.nonempty
      operand.inside).1
    rw [Expression.text, inCode.readAll_eq isPlain, word, Expression.endsInStep,
      Token.allowsRegex, Token.isOneOf, List.any_eq_false]
    intro value member
    rw [beq_iff_eq]
    exact operand.noValue value member

theorem enclosed (inCode : progress.IsInCode)
    (isRead : inner.IsRead context (progress.skim context ['('])) :
    (Expression.enclosed inner).IsRead context progress := by
  constructor
  · exact .enclosed inCode isRead.passes
  · intro divides
    rw [Expression.text, Progress.readAll_enclosed inCode (isRead.passes.stays_iff.mpr divides)]
    rfl

theorem call {callee : Expression} {arguments : Arguments}
    (isRead : callee.IsRead context progress)
    (passes : ∀ {reached : Progress}, reached.within = .plain →
      reached.Passes context arguments.text arguments.DivideNoStep) :
    (Expression.call callee arguments).IsRead context progress := by
  have alone : Progress.StandsAlone ('(' :: (arguments.text ++ [')'])).head? :=
    Progress.standsAlone_some (by decide)
  have behind (divides : callee.DividesNoStep) :
      (progress.readAll context callee.text).IsInCode :=
    (isRead.passes.stays_iff.mpr divides).reached
  constructor
  · exact isRead.passes.append alone fun divides => .enclosed (behind divides) (passes rfl)
  · rintro ⟨divides, divide⟩
    rw [Expression.text, Progress.readAll_append _ alone,
      Progress.readAll_enclosed (behind divides) ((passes rfl).stays_iff.mpr divide)]
    rfl

theorem binary {left right : Expression} {operator : Operator}
    (isRead : left.IsRead context progress)
    (follows : ∀ {reached : Progress}, reached.within = .plain → right.IsRead context reached) :
    (Expression.binary left operator right).IsRead context progress := by
  have alone : Progress.StandsAlone (' ' :: operator.mark :: ' ' :: right.text).head? :=
    Progress.standsAlone_some (by decide)
  have behind (divides : left.DividesNoStep) : (progress.readAll context left.text).IsInCode :=
    (isRead.passes.stays_iff.mpr divides).reached
  constructor
  · apply isRead.passes.append alone
    intro divides
    -- whether a value may follow the left operand is what its last token says
    rw [← isRead.last_eq divides]
    exact .behindOperator (behind divides) (follows rfl).passes
  · rintro ⟨divides, noStep, rightDivides⟩
    rw [← isRead.last_eq divides] at noStep
    rw [Expression.text, Progress.readAll_append _ alone,
      Progress.readAll_operator (behind divides) noStep]
    exact (follows rfl).last_eq rightDivides

theorem stepBefore (step : Step) (inCode : progress.IsInCode)
    (follows : ∀ {reached : Progress}, reached.within = .plain → inner.IsRead context reached) :
    (Expression.stepBefore step inner).IsRead context progress := by
  have inert := step.isInert_of_mem
  have plain := forall_isPlain inert
  have within : (progress.skim context [step.mark, step.mark]).within = .plain := by
    cases step with
    | up => rfl
    | down => rfl
  constructor
  · exact .inert inCode inert (follows within).passes
  · intro divides
    have read := @Progress.IsInCode.readAll_append _ context _ inCode plain inner.text
    exact (congrArg (fun reached => reached.last.allowsRegex) read).trans
      ((follows within).last_eq divides)

theorem stepAfter (step : Step) (isRead : inner.IsRead context progress) :
    (Expression.stepAfter inner step).IsRead context progress := by
  have inert := step.isInert_of_mem
  have plain := forall_isPlain inert
  have alone : Progress.StandsAlone [step.mark, step.mark].head? := by
    apply Progress.standsAlone_some
    cases step with
    | up => decide
    | down => decide
  have behind (divides : inner.DividesNoStep) : (progress.readAll context inner.text).IsInCode :=
    (isRead.passes.stays_iff.mpr divides).reached
  constructor
  · have passes := isRead.passes.append alone fun divides =>
      .inert (behind divides) inert (.nil ((behind divides).skim plain))
    exact passes.congr (Iff.of_eq (and_true _))
  · intro divides
    rw [Expression.text, Progress.readAll_append _ alone, (behind divides).readAll_eq plain]
    cases step with
    | up => rfl
    | down => rfl

end Expression.IsRead

/-- Arguments go on behind a comma and blanks. -/
theorem Progress.Passes.arguments {context : LineContext} {progress : Progress} (blanks : Nat)
    {argument others : List Char} {condition further : Prop}
    (first : progress.Passes context argument condition)
    (follows : ∀ {reached : Progress}, reached.within = .plain →
      reached.Passes context others further) :
    progress.Passes context (argument ++ ',' :: (List.replicate blanks ' ' ++ others))
      (condition ∧ further) := by
  have alone : StandsAlone (',' :: (List.replicate blanks ' ' ++ others)).head? :=
    standsAlone_some (by decide)
  have inert : ∀ letter ∈ ',' :: List.replicate blanks ' ', isInert letter = true := by
    rw [List.forall_mem_cons]
    refine ⟨by decide, ?_⟩
    intro letter member
    rw [List.eq_of_mem_replicate member]
    decide
  apply first.append alone
  intro holds
  apply Passes.inert (first.stays_iff.mpr holds).reached inert
  apply follows
  rw [skim_cons]
  apply within_skim_of_isSpace
  · rfl
  · intro letter member
    rw [List.eq_of_mem_replicate member]
    decide

mutual

theorem Expression.isRead {context : LineContext} {progress : Progress}
    (plain : progress.within = .plain) :
    (expression : Expression) → expression.IsRead context progress
  | .operand operand => .operand operand plain
  | .enclosed inner => .enclosed (Or.inl plain) (inner.isRead rfl)
  | .call callee arguments => .call (callee.isRead plain) fun behind => arguments.passes behind
  | .binary left _ right => .binary (left.isRead plain) fun behind => right.isRead behind
  | .stepBefore step inner => .stepBefore step (Or.inl plain) fun behind => inner.isRead behind
  | .stepAfter inner step => .stepAfter step (inner.isRead plain)

theorem Arguments.passes {context : LineContext} {progress : Progress}
    (plain : progress.within = .plain) :
    (arguments : Arguments) →
      progress.Passes context arguments.text arguments.DivideNoStep
  | .none => .nil (Or.inl plain)
  | .last argument => (argument.isRead plain).passes
  | .more argument blanks others =>
      .arguments blanks (argument.isRead plain).passes fun behind => others.passes behind

end

/-- The scanner passes the statement of an expression as code exactly if no division in it has a
left operand that ends in a step. Then the statement leaves the stack as it was. -/
theorem scanLine_statement_staysInCode (scanner : Scanner) (inCode : scanner.mode = .code)
    (index : Nat) (expression : Expression) :
    (scanner.begin.StaysInCode ⟨index, scanner.previous⟩ expression.statement ↔
        expression.DividesNoStep) ∧
      (expression.DividesNoStep →
        (scanner.scanLine index expression.statement).1.endStack = scanner.stack) := by
  have plain : scanner.begin.within = .plain := congrArg Mode.enter inCode
  have isRead : expression.IsRead ⟨index, scanner.previous⟩ scanner.begin :=
    expression.isRead plain
  have alone : Progress.StandsAlone [';'].head? := Progress.standsAlone_some (by decide)
  have inert : ∀ letter ∈ [';'], isInert letter = true := List.forall_mem_singleton.mpr rfl
  have whole : scanner.begin.Passes ⟨index, scanner.previous⟩ expression.statement
      (expression.DividesNoStep ∧ True) := by
    apply isRead.passes.append alone
    intro divides
    have behind := (isRead.passes.stays_iff.mpr divides).reached
    exact .inert behind inert (.nil (Or.inl rfl))
  exact ⟨whole.stays_iff.trans (Iff.of_eq (and_true _)),
    fun divides => whole.stack_eq ⟨divides, trivial⟩⟩

/-- Divisions of a call and in its argument are no regular expressions. -/
theorem scanLine_statement_staysInCode_call :
    let total : Expression :=
      .operand ⟨"total".toList, by decide, List.all_eq_true.mp (by decide), by decide⟩
    let two : Expression :=
      .operand ⟨"2".toList, by decide, List.all_eq_true.mp (by decide), by decide⟩
    let half : Expression := .binary (.enclosed (.binary total .add two)) .divide two
    let quotient : Expression := .binary (.call total (.last half)) .divide two
    quotient.statement = "total((total + 2) / 2) / 2;".toList ∧
      ({} : Scanner).mode = .code ∧ quotient.DividesNoStep ∧
      ({} : Scanner).begin.StaysInCode ⟨0, []⟩ quotient.statement ∧
      (({} : Scanner).scanLine 0 quotient.statement).1.endStack = [] := by
  intro total two half quotient
  have divides : quotient.DividesNoStep := by
    simp [quotient, half, total, two, Expression.DividesNoStep, Arguments.DivideNoStep,
      Expression.endsInStep]
  have stays := scanLine_statement_staysInCode {} rfl 0 quotient
  exact ⟨rfl, rfl, divides, stays.1.mpr divides, stays.2 divides⟩

/-- Behind a step a division is taken for a regular expression, which swallows the parenthesis. -/
theorem scanLine_statement_swallowsParenthesis :
    let counter : Expression :=
      .operand ⟨"i".toList, by decide, List.all_eq_true.mp (by decide), by decide⟩
    let two : Expression :=
      .operand ⟨"2".toList, by decide, List.all_eq_true.mp (by decide), by decide⟩
    let halved : Expression := .enclosed (.binary (.stepAfter counter .up) .divide two)
    halved.statement = "(i++ / 2);".toList ∧
      (({} : Scanner).scanLine 0 halved.statement).1.endStack = [.paren false] := by
  intro counter two halved
  refine ⟨rfl, ?_⟩
  decide +kernel

end ScriptLint
