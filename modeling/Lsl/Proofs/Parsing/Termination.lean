import Lsl.Proofs.Parsing.Turns
import Lsl.Proofs.Parsing.Unbounded

/-!
Reading comes to an end for all tokens. Expressions and statements are read by calls that are made
further and further on; each turn of a loop leaves fewer tokens ahead, also one in which nothing could
be read, because what is skipped after a failure is then more than nothing.
-/

set_option autoImplicit false

namespace Lsl

/-- What the loops over parameters, handlers and declarations are called for, by what they give. -/
inductive LoopTask : Type → Type where
  | parameters : LoopTask (List ParameterDecl)
  | members : LoopTask (List StateMember)
  | declarations (script : Script) : LoopTask Script

namespace LoopTask

open Lsl.Parser (accept peek recovering)

/-- Each loop, made of a turn and a call. -/
def step (calls : (α : Type) → LoopTask α → Parser α) : (α : Type) → LoopTask α → Parser α
  | _, parameters => do
    let first ← Parser.parameter
    if ← accept .comma then return first :: (← calls _ .parameters) else return [first]
  | _, members => do
    let cursor ← peek
    if cursor.kind = .closeCurly ∨ cursor.kind = .endOfFile then return []
    else
      let first ← recovering (.handler <$> Parser.handlerDecl) (Parser.breakHandler cursor.start)
      return first :: (← calls _ .members)
  | _, declarations script => do
    let cursor ← peek
    if cursor.kind = .endOfFile then return script
    else
      let extended ← recovering (Parser.declaration script)
        (Parser.breakDeclaration script cursor.start)
      calls _ (.declarations extended)

/-- The loops with a bound on their turns. -/
def within (fuel : Nat) : (α : Type) → LoopTask α → Parser α
  | _, parameters => Parser.parametersWithin fuel
  | _, members => Parser.stateMembersWithin fuel
  | _, declarations script => Parser.declarationsWithin fuel script

theorem within_succ (fuel : Nat) : within (fuel + 1) = step (within fuel) := by
  funext α task
  cases task with
  | parameters => rfl
  | members => rfl
  | declarations script => rfl

end LoopTask

def Recursion.loops : Recursion where
  Task := LoopTask
  rank := fun _ => 0
  takes := fun _ => False
  step := LoopTask.step
  rank_lt := fun _ => Nat.zero_lt_succ 7

namespace Parser

/-- A turn of a loop does not fail, and fewer tokens are ahead when it is over. -/
def Advances {α : Type} (turn : Parser α) (cursor : Cursor) : Prop :=
  ∃ value after, turn cursor = .ok value after ∧ cursor.Reaches after ∧
    after.ahead.length < cursor.ahead.length

theorem Derives.advances {α : Type} {turn : Parser α} {cursor : Cursor}
    {property : α → Cursor → Prop} (derives : Derives (fun _ _ => False) turn cursor property)
    (onward : ∀ value after, property value after →
      cursor.Reaches after ∧ after.ahead.length < cursor.ahead.length) : Advances turn cursor := by
  obtain ⟨value, after, read, told⟩ := derives.completes
  exact ⟨value, after, read, onward value after told⟩

theorem Goes.of_advances {α : Type} {turn : Parser α} {cursor : Cursor}
    (advances : cursor.close.kind = .endOfFile → Advances turn cursor) :
    Goes turn cursor fun after => after.ahead.length < cursor.ahead.length := by
  intro closed
  obtain ⟨value, after, read, outcome⟩ := advances closed.close
  unfold Derives
  rw [read]
  exact outcome

section

variable {cursor : Cursor} (closed : cursor.close.kind = .endOfFile)

include closed

theorem statement_turn_advances (inside : cursor.kind ≠ .closeCurly)
    (goes : cursor.kind ≠ .endOfFile) :
    Advances (recovering statement (breakStatement cursor.start)) cursor :=
  (Derives.statement_turn inside goes (Derives.statement closed)).advances fun _ _ inner =>
    ⟨inner.reaches, inner.turn_shorter closed⟩

theorem handler_turn_advances (inside : cursor.kind ≠ .closeCurly)
    (goes : cursor.kind ≠ .endOfFile) :
    Advances (recovering (.handler <$> handlerDecl) (breakHandler cursor.start)) cursor :=
  (Derives.handler_turn closed inside goes).advances fun _ _ inner =>
    ⟨inner.carried .reaches, inner.shorter closed⟩

theorem declaration_turn_advances (script : Script) (goes : cursor.kind ≠ .endOfFile) :
    Advances (recovering (declaration script) (breakDeclaration script cursor.start)) cursor :=
  (Derives.turn script closed goes).advances fun _ _ turns =>
    ⟨turns.carried .reaches, turns.shorter closed⟩

end

/-- How many tokens to skip is found token by token: at each one skipping ends, in front of it or
behind it, or goes on behind it. -/
structure Synchronizes {State : Type} (count : State → List Token → Nat) : Prop where
  ended : ∀ state, count state [] = 0
  turn : ∀ state token rest, count state (token :: rest) ≤ 1 ∨
    ∃ after, count state (token :: rest) = 1 + count after rest

theorem statement_skip_synchronizes : Synchronizes statementSkip where
  ended := fun _ => rfl
  turn := by
    intro depth token rest
    rw [statementSkip]
    grind

theorem top_level_skip_synchronizes :
    Synchronizes fun state : Nat × Bool => topLevelSkip state.1 state.2 where
  ended := fun _ => rfl
  turn := by
    intro state token rest
    simp only [topLevelSkip, Prod.exists]
    grind

theorem handler_skip_synchronizes :
    Synchronizes fun state : Nat × Bool => handlerSkip state.1 state.2 where
  ended := fun _ => rfl
  turn := by
    intro state token rest
    simp only [handlerSkip, Prod.exists]
    grind

end Parser

namespace Recursion

open Lsl.Parser (Agree Goes)

/-- Every loop goes on behind the tokens its turn has read or skipped. -/
theorem loops_descend : loops.Descends := by
  intro calls other α task cursor before
  suffices whole : Agree (LoopTask.step calls α task) (LoopTask.step other α task) cursor
      fun _ => True from whole.weaken fun _ _ promised => promised.elim
  cases task with
  | parameters =>
      simp only [LoopTask.step, Parser.parameter, bind_assoc, pure_bind]
      apply Agree.peek_bind
      refine Agree.past .type fun type first _ _ => ?_
      refine Agree.expect (by decide) fun name second shorter => ?_
      apply Agree.span_from_bind
      refine Agree.accept (by decide) (fun after shorter => ?_) (.pure trivial)
      exact (before.call .parameters (by omega)).bind fun _ _ _ _ => .pure trivial
  | members =>
      apply Agree.peek_bind
      split
      · exact .pure trivial
      · rename_i inside
        rw [not_or] at inside
        have turn := Goes.of_advances fun closed =>
          Parser.handler_turn_advances closed inside.1 inside.2
        refine Agree.past turn fun first after _ shorter => ?_
        exact (before.call .members shorter).bind fun _ _ _ _ => .pure trivial
  | declarations script =>
      apply Agree.peek_bind
      split
      · exact .pure trivial
      · rename_i open_
        have turn := Goes.of_advances fun closed =>
          Parser.declaration_turn_advances closed script open_
        exact Agree.past turn fun extended after _ shorter =>
          before.call (.declarations extended) shorter

end Recursion

open Lsl.Parser (Advances Synchronizes)

/-- Reading tokens comes to an end, and it goes forward all the time. -/
structure ReadingEnds (tokens : List Token) : Prop where
  expressions : Recursion.expressions.Ends ExprTask.within
  statements : Recursion.statements.Ends StmtTask.within
  loops : Recursion.loops.Ends LoopTask.within
  statement_turn : ∀ cursor, (Cursor.ofTokens tokens).Reaches cursor →
    cursor.kind ≠ .closeCurly → cursor.kind ≠ .endOfFile →
    Advances (Parser.recovering Parser.statement (Parser.breakStatement cursor.start)) cursor
  handler_turn : ∀ cursor, (Cursor.ofTokens tokens).Reaches cursor →
    cursor.kind ≠ .closeCurly → cursor.kind ≠ .endOfFile →
    Advances (Parser.recovering (.handler <$> Parser.handlerDecl)
      (Parser.breakHandler cursor.start)) cursor
  declaration_turn : ∀ script cursor, (Cursor.ofTokens tokens).Reaches cursor →
    cursor.kind ≠ .endOfFile →
    Advances (Parser.recovering (Parser.declaration script)
      (Parser.breakDeclaration script cursor.start)) cursor
  statement_skip : Synchronizes Parser.statementSkip
  handler_skip : Synchronizes fun state : Nat × Bool => Parser.handlerSkip state.1 state.2
  top_level_skip : Synchronizes fun state : Nat × Bool => Parser.topLevelSkip state.1 state.2
  expression : ∀ fuel, (Cursor.ofTokens tokens).budget ≤ fuel →
    Parser.expressionWithin fuel .lowest (.ofTokens tokens) = Parser.expression (.ofTokens tokens)
  /-- A whole script is read without a bound on the turns, up to the closing token. -/
  script : ∃ found last, last.kind = .endOfFile ∧ (Cursor.ofTokens tokens).Reaches last ∧
    (∀ fuel, (Cursor.ofTokens tokens).budget ≤ fuel →
      Parser.declarationsWithin fuel { span := .point (Cursor.ofTokens tokens).start }
        (.ofTokens tokens) = .ok found last) ∧
    Parser.script (.ofTokens tokens) =
      .ok { found with span := last.spanFrom (Cursor.ofTokens tokens).start } last ∧
    parse tokens =
      ({ found with span := last.spanFrom (Cursor.ofTokens tokens).start }, last.errors)

theorem reading_ends (tokens : List Token) : ReadingEnds tokens := by
  have closed := Cursor.closed_of_tokens tokens
  have expressions := Recursion.expressions_descend.ends ExprTask.within_succ
  have loops := Recursion.loops_descend.ends LoopTask.within_succ
  obtain ⟨found, last, _, ends, reaches, read⟩ := Parser.Turn.last closed.close .first
  have script : Parser.script (.ofTokens tokens) =
      .ok { found with span := last.spanFrom (Cursor.ofTokens tokens).start } last := by
    unfold Parser.script
    change (Parser.declarationsWithin _ _ >>= _) (Cursor.ofTokens tokens) = _
    rw [Parser.bind_of_ok read]
    rfl
  exact {
    expressions := expressions
    statements := Recursion.statements_descend.ends StmtTask.within_succ
    loops := loops
    statement_turn := fun cursor reached inside goes =>
      Parser.statement_turn_advances (closed.after reached).close inside goes
    handler_turn := fun cursor reached inside goes =>
      Parser.handler_turn_advances (closed.after reached).close inside goes
    declaration_turn := fun script cursor reached goes =>
      Parser.declaration_turn_advances (closed.after reached).close script goes
    statement_skip := Parser.statement_skip_synchronizes
    handler_skip := Parser.handler_skip_synchronizes
    top_level_skip := Parser.top_level_skip_synchronizes
    expression := fun fuel enough => expressions.bounded (.expression .lowest) _ fuel closed enough
    script := by
      refine ⟨found, last, ends, reaches, fun fuel enough => ?_, script, by rw [parse, script]⟩
      let empty : Script := { span := .point (Cursor.ofTokens tokens).start }
      exact (loops.bounded (.declarations empty) _ fuel closed enough).trans read }

end Lsl
