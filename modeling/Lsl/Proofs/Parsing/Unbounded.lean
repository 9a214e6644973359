import Lsl.Proofs.Parsing.Descent

/-!
The readers of expressions and statements without a bound on their steps. No call of a reader comes
back to it before a token is read, so that their equations determine what they do.
-/

set_option autoImplicit false

namespace Lsl

/-- What the readers of expressions are called for, by what they give. -/
inductive ExprTask : Type → Type where
  | expression (power : Power) : ExprTask Expr
  | extend (power : Power) (left : Expr) : ExprTask Expr
  | operand : ExprTask Expr
  | list (terminator : TokenKind) : ExprTask ExprList
  | members : ExprTask (List Expr)

namespace ExprTask

/-- What a task calls for without reading a token has a lower rank. -/
def rank {α : Type} : ExprTask α → Nat
  | operand => 0
  | extend _ _ => 0
  | expression _ => 1
  | members => 2
  | list _ => 3

theorem rank_lt {α : Type} (task : ExprTask α) : task.rank < 8 := by
  cases task <;> simp [rank]

open Lsl.Parser (accept expect mismatched next peek spanFrom)

section

variable (calls : (α : Type) → ExprTask α → Parser α)

/-- The operators behind an expression, made of calls. -/
def extendStep (power : Power) (left : Expr) : Parser Expr := do
  let cursor ← peek
  if cursor.kind.power.rank ≤ power.rank then return left
  else
    match cursor.kind with
    | .plusPlus => calls _ (.extend power (← Parser.stepBehind left .increment))
    | .minusMinus => calls _ (.extend power (← Parser.stepBehind left .decrement))
    | .dot => calls _ (.extend power (← Parser.memberBehind left))
    | kind =>
      match kind.binaryOperator? with
      | none => return left
      | some operator =>
        if operator.isAssignment && !left.isAssignable then mismatched Parser.afterExpression
        else
          let _ ← next
          let right ← calls _
            (.expression (if operator.isAssignment then .lowest else operator.power))
          calls _ (.extend power
            (.binary { span := left.span.merge right.span } operator left right))

def operandStep : Parser Expr := do
  let token := (← peek).current
  match token.kind with
  | .integer =>
    let _ ← next
    return .integer { span := token.span } token.text
  | .hex =>
    let _ ← next
    return .hex { span := token.span } token.text
  | .float =>
    let _ ← next
    return .float { span := token.span } token.text
  | .string =>
    let _ ← next
    return .string { span := token.span } token.text
  | .identifier =>
    let _ ← next
    if ← accept .openParen then
      let arguments ← calls _ (.list .closeParen)
      let _ ← expect .closeParen
      return .call { span := ← spanFrom token.span.start } token.text arguments.span
        arguments.members .unresolved
    else return .reference { span := token.span } token.text .unresolved
  | .openParen =>
    let _ ← next
    if (← peek).kind = .type then
      let target ← Parser.type
      let _ ← expect .closeParen
      let operand ← calls _ (.expression .unary)
      return .cast { span := ← spanFrom token.span.start } target operand
    else
      let inner ← calls _ (.expression .lowest)
      let _ ← expect .closeParen
      return .grouped { span := ← spanFrom token.span.start } inner
  | .openBracket =>
    let _ ← next
    let elements ← calls _ (.list .closeBracket)
    let _ ← expect .closeBracket
    return .list { span := ← spanFrom token.span.start } elements.span elements.members
  | .less =>
    let _ ← next
    let x ← calls _ (.expression .lowest)
    let _ ← expect .comma
    let y ← calls _ (.expression .lowest)
    let _ ← expect .comma
    let z ← calls _ (.expression .relational)
    if ← accept .greater then
      return .vector { span := ← spanFrom token.span.start } x y z
    else if ← accept .comma then
      let s ← calls _ (.expression .relational)
      let _ ← expect .greater
      return .rotation { span := ← spanFrom token.span.start } x y z s
    else mismatched "\x7b',', '>'\x7d"
  | kind =>
    match kind.prefixOperator? with
    | some operator =>
      let _ ← next
      let operand ← calls _ (.expression .unary)
      return .prefixed { span := token.span.merge operand.span } operator operand
    | none => mismatched Parser.expressionStart

/-- Each reader of expressions, made of calls. -/
def step : (α : Type) → ExprTask α → Parser α
  | _, expression power => do
    let left ← calls _ .operand
    calls _ (.extend power left)
  | _, extend power left => extendStep calls power left
  | _, operand => operandStep calls
  | _, list terminator => do
    let cursor ← peek
    if cursor.kind = terminator then return ⟨.point cursor.start, []⟩
    else
      let members ← calls _ .members
      return ⟨← spanFrom cursor.start, members⟩
  | _, members => do
    let first ← calls _ (.expression .lowest)
    if ← accept .comma then return first :: (← calls _ .members) else return [first]

end

/-- The readers of expressions with a bound on their steps. -/
def within (fuel : Nat) : (α : Type) → ExprTask α → Parser α
  | _, expression power => Parser.expressionWithin fuel power
  | _, extend power left => Parser.extendWithin fuel power left
  | _, operand => Parser.operandWithin fuel
  | _, list terminator => Parser.listWithin fuel terminator
  | _, members => Parser.membersWithin fuel

theorem within_succ (fuel : Nat) : within (fuel + 1) = step (within fuel) := by
  funext α task
  cases task with
  | expression power => rfl
  | extend power left => rfl
  | operand => rfl
  | list terminator => rfl
  | members => rfl

end ExprTask

/-- What the readers of statements are called for, by what they give. -/
inductive StmtTask : Type → Type where
  | statement : StmtTask Stmt
  | scope (role : ScopeRole) : StmtTask (ScopeInfo × List Stmt)
  | statements : StmtTask (List Stmt)
  | body (role : ScopeRole) : StmtTask (ScopeInfo × List Stmt)
  | alternatives : StmtTask Alternatives

namespace StmtTask

/-- What a task calls for without reading a token has a lower rank. -/
def rank {α : Type} : StmtTask α → Nat
  | scope _ => 0
  | alternatives => 0
  | statement => 1
  | statements => 2
  | body _ => 2

theorem rank_lt {α : Type} (task : StmtTask α) : task.rank < 8 := by
  cases task <;> simp [rank]

/-- Statements and scopes have a token, lists of statements and branches may be empty. -/
def takes {α : Type} : StmtTask α → Prop
  | statement => True
  | scope _ => True
  | _ => False

open Lsl.Parser (accept condition expect freshScope next peek spanFrom)

section

variable (calls : (α : Type) → StmtTask α → Parser α)

def statementStep : Parser Stmt := do
  match (← peek).kind with
  | .openCurly =>
    let (info, inner) ← calls _ (.scope .block)
    return .block info inner
  | .type =>
    let (span, decl) ← Parser.variableDeclaration
    return .declare { span } decl
  | .ifWord =>
    let start := (← next).span.start
    let value ← condition
    let (info, inner) ← calls _ (.body .ifBody)
    let first ← spanFrom start
    let rest ← calls _ .alternatives
    return .branch { span := ← spanFrom start } first value info inner rest
  | .whileWord =>
    let start := (← next).span.start
    let value ← condition
    let (info, inner) ← calls _ (.body .whileLoop)
    return .whileLoop { span := ← spanFrom start } value info inner
  | .doWord =>
    let start := (← next).span.start
    let (info, inner) ← calls _ (.body .doLoop)
    let _ ← expect .whileWord
    let value ← condition
    let _ ← expect .semicolon
    return .doLoop { span := ← spanFrom start } info inner value
  | .forWord =>
    let start := (← next).span.start
    let (init, value, afterthought) ← Parser.loopClauses
    let (info, inner) ← calls _ (.body .forLoop)
    return .forLoop { span := ← spanFrom start } init value afterthought info inner
  | .returnWord => Parser.returnStatement
  | .jumpWord => Parser.jumpStatement
  | .atSign => Parser.labelStatement
  | .stateWord => Parser.stateChangeStatement
  | .semicolon => return .empty { span := (← next).span }
  | _ => Parser.expressionStatement

/-- The body of a branch or loop, made of calls. -/
def bodyStep (role : ScopeRole) : Parser (ScopeInfo × List Stmt) := do
  let token := (← peek).current
  match token.kind with
  | .openCurly => calls _ (.scope role)
  | .type =>
    throw ⟨.grammar, token.text, "mismatched input '" ++ token.text ++
      "' expecting a statement, declarations need an enclosing '\x7b'", token.span⟩
  | _ =>
    let id ← freshScope
    let stmt ← calls _ .statement
    return (⟨stmt.span, id, role, true, .live⟩, [stmt])

/-- The `else` branches of an `if`, made of calls. -/
def alternativesStep : Parser Alternatives := do
  let start := (← peek).start
  if ← accept .elseWord then
    if ← accept .ifWord then
      let value ← condition
      let (info, inner) ← calls _ (.body .elseIfBody)
      let span ← spanFrom start
      let rest ← calls _ .alternatives
      return .elseIf span value info inner rest
    else
      let (info, inner) ← calls _ (.body .elseBody)
      return .otherwise (← spanFrom start) info inner
  else return .done

/-- Each reader of statements, made of calls. -/
def step : (α : Type) → StmtTask α → Parser α
  | _, statement => statementStep calls
  | _, scope role => do
    let start := (← expect .openCurly).span.start
    let id ← freshScope
    let inner ← calls _ .statements
    let _ ← expect .closeCurly
    return (⟨← spanFrom start, id, role, false, .live⟩, inner)
  | _, statements => do
    let cursor ← peek
    if cursor.kind = .closeCurly ∨ cursor.kind = .endOfFile then return []
    else
      let first ← Parser.recovering (calls _ .statement) (Parser.breakStatement cursor.start)
      return first :: (← calls _ .statements)
  | _, body role => bodyStep calls role
  | _, alternatives => alternativesStep calls

end

/-- The readers of statements with a bound on their steps. -/
def within (fuel : Nat) : (α : Type) → StmtTask α → Parser α
  | _, statement => Parser.statementWithin fuel
  | _, scope role => Parser.scopeWithin fuel role
  | _, statements => Parser.statementsWithin fuel
  | _, body role => Parser.bodyWithin fuel role
  | _, alternatives => Parser.alternativesWithin fuel

theorem within_succ (fuel : Nat) : within (fuel + 1) = step (within fuel) := by
  funext α task
  cases task with
  | statement => rfl
  | scope role => rfl
  | statements => rfl
  | body role => rfl
  | alternatives => rfl

end StmtTask

/-- The readers of expressions call each other. -/
def Recursion.expressions : Recursion where
  Task := ExprTask
  rank := ExprTask.rank
  takes := fun _ => False
  step := ExprTask.step
  rank_lt := ExprTask.rank_lt

/-- The readers of statements call each other. -/
def Recursion.statements : Recursion where
  Task := StmtTask
  rank := StmtTask.rank
  takes := StmtTask.takes
  step := StmtTask.step
  rank_lt := StmtTask.rank_lt

namespace Parser

variable {cursor : Cursor}

namespace Goes

theorem spanned {α : Type} {start : Position} {build : Span → α} {property : Cursor → Prop}
    (holds : property cursor) :
    Goes (do return build (← Parser.spanFrom start)) cursor property :=
  fun closed => Derives.span_from_bind (pure holds closed)

theorem step_behind (left : Expr) (operator : PostfixOperator) (open_ : cursor.kind ≠ .endOfFile) :
    Goes (Parser.stepBehind left operator) cursor
      fun after => after.ahead.length < cursor.ahead.length := by
  unfold Parser.stepBehind
  split
  · exact (next open_).bind fun _ _ _ shorter => pure shorter
  · exact mismatched

theorem member_behind (left : Expr) (open_ : cursor.kind ≠ .endOfFile) :
    Goes (Parser.memberBehind left) cursor
      fun after => after.ahead.length < cursor.ahead.length := by
  unfold Parser.memberBehind Parser.componentName
  split
  · refine (next open_).bind fun _ middle _ shorter => ?_
    rw [bind_assoc]
    refine (expect_or (by decide)).bind fun token after _ further => ?_
    split
    · exact pure (by omega)
    · exact fail
  · exact mismatched

theorem statement {reader : Parser Stmt}
    (derives : cursor.close.kind = .endOfFile →
      Derives cursor.Faults reader cursor fun stmt after =>
        (Phrase.statement stmt).Runs cursor after) :
    Goes reader cursor fun after => after.ahead.length < cursor.ahead.length :=
  advancing derives fun _ _ moves => moves

end Goes

namespace Agree

theorem mismatched {α : Type} {expecting : String} {property : Cursor → Prop} :
    Agree (Parser.mismatched expecting : Parser α) (Parser.mismatched expecting) cursor property :=
  refl .mismatched

theorem spanned {α : Type} {start : Position} {build : Span → α} {property : Cursor → Prop}
    (holds : property cursor) :
    Agree (do return build (← Parser.spanFrom start)) (do return build (← Parser.spanFrom start))
      cursor property :=
  refl (.spanned holds)

/-- Where a statement cannot be read, the token it fails at is skipped if none was read before. -/
theorem recovering {first second : Parser Stmt} (inside : cursor.kind ≠ .closeCurly)
    (open_ : cursor.kind ≠ .endOfFile)
    (agree : Agree first second cursor fun after => after.ahead.length < cursor.ahead.length) :
    Agree (Parser.recovering first (breakStatement cursor.start))
      (Parser.recovering second (breakStatement cursor.start)) cursor
      fun after => after.ahead.length < cursor.ahead.length := by
  constructor
  · intro closed
    unfold Parser.recovering
    rw [agree.same closed]
  · intro closed
    apply Derives.recovering (agree.goes closed) fun _ _ outcome => outcome
    intro error failed reaches
    apply Derives.break_statement
    have shorter := Cursor.abandoned_shorter reaches closed.close open_
      (fun _ rest same => statement_skip_pos rest (same ▸ inside)) error
    exact ⟨reaches.trans (failed.reaches_abandoned _ _), shorter⟩

end Agree

end Parser

namespace Recursion

open Lsl.Parser (Agree Derives Goes)

section

variable {calls other : expressions.Readers} {α : Type} {task : ExprTask α} {cursor : Cursor}
  (before : expressions.AgreeBefore calls other task cursor)

include before

theorem extend_agrees (power : Power) (left : Expr) :
    Agree (ExprTask.extendStep calls power left) (ExprTask.extendStep other power left) cursor
      fun _ => True := by
  unfold ExprTask.extendStep
  apply Agree.peek_bind
  split
  · exact .pure trivial
  · split
    · rename_i found
      exact Agree.past (.step_behind left .increment (by simp [found]))
        fun _ after _ shorter => before.call _ shorter
    · rename_i found
      exact Agree.past (.step_behind left .decrement (by simp [found]))
        fun _ after _ shorter => before.call _ shorter
    · rename_i found
      exact Agree.past (.member_behind left (by simp [found]))
        fun _ after _ shorter => before.call _ shorter
    · split
      · exact .pure trivial
      · rename_i operator known
        split
        · exact .mismatched
        · have open_ : cursor.kind ≠ .endOfFile := by
            intro ended
            rw [ended] at known
            cases known
          refine Agree.next open_ fun _ middle shorter => ?_
          refine (before.call _ shorter).bind fun right after later _ => ?_
          exact before.call _ (by omega)

theorem operand_agrees :
    Agree (ExprTask.operandStep calls) (ExprTask.operandStep other) cursor fun _ => True := by
  unfold ExprTask.operandStep
  apply Agree.peek_bind
  dsimp only
  split
  · exact Agree.next (by simp_all [Cursor.kind]) fun _ _ _ => .pure trivial
  · exact Agree.next (by simp_all [Cursor.kind]) fun _ _ _ => .pure trivial
  · exact Agree.next (by simp_all [Cursor.kind]) fun _ _ _ => .pure trivial
  · exact Agree.next (by simp_all [Cursor.kind]) fun _ _ _ => .pure trivial
  · refine Agree.next (by simp_all [Cursor.kind]) fun _ named shorter => ?_
    refine Agree.accept (by decide) (fun opened less => ?_) (.pure trivial)
    refine (before.call _ (by omega)).bind fun arguments after later _ => ?_
    exact Agree.expect (by decide) fun _ _ _ => .spanned trivial
  · refine Agree.next (by simp_all [Cursor.kind]) fun _ opened shorter => ?_
    apply Agree.peek_bind
    split
    · refine Agree.past .type fun target _ _ less => ?_
      refine Agree.expect (by decide) fun _ closed fewer => ?_
      exact (before.call _ (by omega)).bind fun _ _ _ _ => .spanned trivial
    · refine (before.call _ shorter).bind fun inner after _ _ => ?_
      exact Agree.expect (by decide) fun _ _ _ => .spanned trivial
  · refine Agree.next (by simp_all [Cursor.kind]) fun _ opened shorter => ?_
    refine (before.call _ shorter).bind fun elements after _ _ => ?_
    exact Agree.expect (by decide) fun _ _ _ => .spanned trivial
  · refine Agree.next (by simp_all [Cursor.kind]) fun _ opened shorter => ?_
    refine (before.call _ shorter).bind fun x first _ _ => ?_
    refine Agree.expect (by decide) fun _ second _ => ?_
    refine (before.call _ (by omega)).bind fun y third _ _ => ?_
    refine Agree.expect (by decide) fun _ fourth _ => ?_
    refine (before.call _ (by omega)).bind fun z fifth _ _ => ?_
    refine Agree.accept (by decide) (fun _ _ => .spanned trivial) ?_
    refine Agree.accept (by decide) (fun last _ => ?_) .mismatched
    refine (before.call _ (by omega)).bind fun s after _ _ => ?_
    exact Agree.expect (by decide) fun _ _ _ => .spanned trivial
  · split
    · rename_i operator known
      have open_ : cursor.kind ≠ .endOfFile := by
        intro ended
        change cursor.kind.prefixOperator? = some operator at known
        rw [ended] at known
        cases known
      refine Agree.next open_ fun _ after shorter => ?_
      exact (before.call _ shorter).bind fun _ _ _ _ => .pure trivial
    · exact .mismatched

end

theorem expressions_descend : expressions.Descends := by
  intro calls other α task cursor before
  suffices whole : Agree (ExprTask.step calls α task) (ExprTask.step other α task) cursor
      fun _ => True from whole.weaken fun _ _ promised => promised.elim
  cases task with
  | expression power =>
      refine (before.here .operand le_rfl Nat.zero_lt_one).bind fun left after reached _ => ?_
      exact (before.here (.extend power left) reached Nat.zero_lt_one).weaken fun _ _ => trivial
  | extend power left => exact extend_agrees before power left
  | operand => exact operand_agrees before
  | list terminator =>
      apply Agree.peek_bind
      split
      · exact .pure trivial
      · refine (before.here .members le_rfl (Nat.lt_succ_self 2)).bind fun members after _ _ => ?_
        exact .spanned trivial
  | members =>
      refine (before.here (.expression .lowest) le_rfl Nat.one_lt_two).bind
        fun first middle reached _ => ?_
      refine Agree.accept (by decide) (fun after shorter => ?_) (.pure trivial)
      exact (before.call .members (by omega)).bind fun _ _ _ _ => .pure trivial

section

variable {calls other : statements.Readers} {α : Type} {task : StmtTask α} {cursor : Cursor}

theorem statement_agrees (before : statements.AgreeBefore calls other .statement cursor) :
    Agree (StmtTask.statementStep calls) (StmtTask.statementStep other) cursor
      fun after => after.ahead.length < cursor.ahead.length := by
  unfold StmtTask.statementStep
  apply Agree.peek_bind
  split
  case h_1 =>
    refine (before.here (.scope .block) le_rfl Nat.zero_lt_one).bind fun _ _ _ shorter => ?_
    exact .pure (shorter trivial)
  case h_2 =>
    have declared : Goes Parser.variableDeclaration cursor fun after =>
        after.ahead.length < cursor.ahead.length :=
      .advancing Derives.variable_declaration fun _ _ moves => moves
    exact Agree.past declared fun _ _ _ shorter => .pure shorter
  case h_3 found =>
    refine Agree.next (by simp [found]) fun _ first shorter => ?_
    refine Agree.past (.phrase Derives.condition) fun _ second reached _ => ?_
    refine (before.call (.body .ifBody) (by omega)).bind fun _ third later _ => ?_
    apply Agree.span_from_bind
    refine (before.call .alternatives (by omega)).bind fun _ last least _ => ?_
    exact .spanned (by omega)
  case h_4 found =>
    refine Agree.next (by simp [found]) fun _ first shorter => ?_
    refine Agree.past (.phrase Derives.condition) fun _ second reached _ => ?_
    refine (before.call (.body .whileLoop) (by omega)).bind fun _ last later _ => ?_
    exact .spanned (by omega)
  case h_5 found =>
    refine Agree.next (by simp [found]) fun _ first shorter => ?_
    refine (before.call (.body .doLoop) (by omega)).bind fun _ second later _ => ?_
    refine Agree.expect (by decide) fun _ third less => ?_
    refine Agree.past (.phrase Derives.condition) fun _ fourth reached _ => ?_
    exact Agree.expect (by decide) fun _ _ _ => .spanned (by omega)
  case h_6 found =>
    refine Agree.next (by simp [found]) fun _ first shorter => ?_
    refine Agree.past (.phrase Derives.loop_clauses) fun _ second reached _ => ?_
    refine (before.call (.body .forLoop) (by omega)).bind fun _ last later _ => ?_
    exact .spanned (by omega)
  case h_7 word => exact .refl (.statement (Derives.return_statement word))
  case h_8 word =>
    refine .refl (.statement fun _ => ?_)
    exact Derives.named_statement (fun span name => .jump { span } name none) (word ▸ by decide)
      (.jump word)
  case h_9 sign =>
    refine .refl (.statement fun _ => ?_)
    exact Derives.named_statement (fun span name => .label { span } name) (sign ▸ by decide)
      (.label sign)
  case h_10 word => exact .refl (.statement fun _ => Derives.state_change_statement word)
  case h_11 found => exact Agree.next (by simp [found]) fun _ _ shorter => .pure shorter
  case h_12 => exact .refl (.statement Derives.expression_statement)

theorem body_agrees (role : ScopeRole)
    (before : statements.AgreeBefore calls other (.body role) cursor) :
    Agree (StmtTask.bodyStep calls role) (StmtTask.bodyStep other role) cursor fun _ => True := by
  unfold StmtTask.bodyStep
  apply Agree.peek_bind
  dsimp only
  split
  · exact (before.here (.scope role) le_rfl Nat.zero_lt_two).weaken fun _ _ => trivial
  · exact .refl .fail
  · refine Agree.past .fresh_scope fun _ after reached _ => ?_
    exact (before.here .statement reached Nat.one_lt_two).bind fun _ _ _ _ => .pure trivial

theorem alternatives_agrees
    (before : statements.AgreeBefore calls other .alternatives cursor) :
    Agree (StmtTask.alternativesStep calls) (StmtTask.alternativesStep other) cursor
      fun _ => True := by
  unfold StmtTask.alternativesStep
  apply Agree.peek_bind
  refine Agree.accept (by decide) (fun first shorter => ?_) (.pure trivial)
  refine Agree.accept (by decide) (fun second further => ?_) ?_
  · refine Agree.past (.phrase Derives.condition) fun _ third reached _ => ?_
    refine (before.call (.body .elseIfBody) (by omega)).bind fun _ fourth later _ => ?_
    apply Agree.span_from_bind
    exact (before.call .alternatives (by omega)).bind fun _ _ _ _ => .pure trivial
  · exact (before.call (.body .elseBody) shorter).bind fun _ _ _ _ => .spanned trivial

end

theorem statements_descend : statements.Descends := by
  intro calls other α task cursor before
  cases task with
  | statement => exact (statement_agrees before).weaken fun _ shorter _ => shorter
  | scope role =>
      refine Agree.expect (by decide) fun _ first shorter => ?_
      refine Agree.past .fresh_scope fun _ second reached _ => ?_
      refine (before.call .statements (by omega)).bind fun _ third later _ => ?_
      exact Agree.expect (by decide) fun _ _ _ => .spanned fun _ => by omega
  | statements =>
      apply Agree.peek_bind
      split
      · exact .pure fun promised => promised.elim
      · rename_i inside
        rw [not_or] at inside
        have first := (before.here .statement le_rfl Nat.one_lt_two).weaken
          fun _ shorter => shorter trivial
        refine (Agree.recovering inside.1 inside.2 first).bind fun _ middle _ shorter => ?_
        exact (before.call .statements shorter).bind fun _ _ _ _ =>
          .pure fun promised => promised.elim
  | body role => exact (body_agrees role before).weaken fun _ _ promised => promised.elim
  | alternatives => exact (alternatives_agrees before).weaken fun _ _ promised => promised.elim

end Recursion

end Lsl
