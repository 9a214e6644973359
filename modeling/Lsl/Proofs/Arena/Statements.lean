import Lsl.Proofs.Arena.Expressions

/-!
Statements are planted as they are read. A scope takes the nodes of its statements, and a branch of
an `if` is a node of its own. Where a statement cannot be read, what was planted of it is left behind
and a broken statement takes its place.
-/

set_option autoImplicit false

namespace Lsl

open Lsl.Parser (Grants)

namespace Planter

namespace Mirrors

theorem jump_statement :
    Mirrors (fun stmt => [stmt.node]) [] (leaf Parser.jumpStatement) Parser.jumpStatement := by
  apply read_grow
  apply Grants.bind .next
  intro _
  apply Grants.bind .expect
  intro _
  apply Grants.bind .expect
  intro _
  exact Grants.bind .span_from fun _ => Grants.pure ⟨rfl, rfl⟩

theorem label_statement :
    Mirrors (fun stmt => [stmt.node]) [] (leaf Parser.labelStatement) Parser.labelStatement := by
  apply read_grow
  apply Grants.bind .next
  intro _
  apply Grants.bind .expect
  intro _
  apply Grants.bind .expect
  intro _
  exact Grants.bind .span_from fun _ => Grants.pure ⟨rfl, rfl⟩

theorem state_change_statement :
    Mirrors (fun stmt => [stmt.node]) [] (leaf Parser.stateChangeStatement)
      Parser.stateChangeStatement := by
  apply read_grow
  apply Grants.bind .next
  intro _
  apply Grants.bind .state_name
  intro _
  apply Grants.bind .expect
  intro _
  exact Grants.bind .span_from fun _ => Grants.pure ⟨rfl, rfl⟩

theorem variable_declaration :
    Mirrors (fun result => result.2.initializer.toList.map .expr) [] Planter.variableDeclaration
      Parser.variableDeclaration := by
  unfold Planter.variableDeclaration Parser.variableDeclaration
  apply read_bind .peek
  intro cursor
  apply read_bind .type
  intro type
  apply read_bind .expect
  intro name
  apply read_bind .accept
  intro assigned
  split
  · apply bind expression
    intro initializer inside
    apply read_bind .expect
    intro _
    exact read_bind .span_from fun _ => pure inside
  · apply read_bind .expect_or
    intro _
    exact read_bind .span_from fun _ => pure rfl

theorem condition :
    Mirrors (fun value => [.expr value]) [] Planter.condition Parser.condition := by
  unfold Planter.condition Parser.condition
  apply read_bind .expect
  intro _
  apply bind expression
  intro value inside
  exact read_bind .expect fun _ => pure inside

theorem optional_list {role : ListRole} {terminator : TokenKind} :
    Mirrors (fun list => list.toList.map (.exprList role)) []
      (Planter.optionalList role terminator) (Parser.optionalList terminator) := by
  unfold Planter.optionalList Parser.optionalList
  apply read_bind .peek
  intro cursor
  split
  · exact pure rfl
  · exact bind expression_list fun list inside => pure inside

theorem optional_expression :
    Mirrors (fun value => value.toList.map .expr) [] Planter.optionalExpression
      Parser.optionalExpression := by
  unfold Planter.optionalExpression Parser.optionalExpression
  apply read_bind .peek
  intro cursor
  split
  · exact pure rfl
  · exact bind expression fun value inside => pure inside

theorem return_statement :
    Mirrors (fun stmt => [stmt.node]) [] Planter.returnStatement Parser.returnStatement := by
  unfold Planter.returnStatement Parser.returnStatement
  apply read_bind .next
  intro _
  apply bind optional_expression
  intro value inside
  apply read_bind .expect
  intro _
  exact read_bind .span_from fun _ => grow rfl inside

theorem expression_statement :
    Mirrors (fun stmt => [stmt.node]) [] Planter.expressionStatement
      Parser.expressionStatement := by
  unfold Planter.expressionStatement Parser.expressionStatement
  apply bind expression
  intro value inside
  apply read_bind .expect
  intro _
  exact read_bind .span_from fun _ => grow rfl inside

theorem loop_clauses :
    Mirrors (fun clauses => clauses.1.toList.map (.exprList .loopInit) ++
      clauses.2.1.toList.map .expr ++ clauses.2.2.toList.map (.exprList .loopAfterthought)) []
        Planter.loopClauses Parser.loopClauses := by
  unfold Planter.loopClauses Parser.loopClauses
  apply read_bind .expect
  intro _
  apply bind optional_list
  intro init first
  apply read_bind .expect
  intro _
  apply past optional_expression
  intro condition second
  apply read_bind .expect
  intro _
  apply past optional_list
  intro afterthought third
  apply read_bind .expect
  intro _
  exact pure (by simp only [List.map_append, first, second, third])

theorem broken_statement (start : Position) {planter : Planter (Planted Stmt)}
    {reader : Parser Stmt} (first : Mirrors (fun stmt => [stmt.node]) [] planter reader) :
    Mirrors (fun stmt => [stmt.node]) []
      (Planter.recovering planter (Planter.breakStatement start))
      (Parser.recovering reader (Parser.breakStatement start)) :=
  recovering first fun error cursor => ⟨_, _, rfl, cursor.reported_skip error _, rfl⟩

/-- The planters of statements at one bound on their steps. -/
structure Statements (fuel : Nat) : Prop where
  statement : Mirrors (fun stmt => [stmt.node]) [] (Planter.statementWithin fuel)
    (Parser.statementWithin fuel)
  scope : ∀ role, Mirrors (fun result => [scopeNode result]) [] (Planter.scopeWithin fuel role)
    (Parser.scopeWithin fuel role)
  statements : Mirrors (List.map Stmt.node) [] (Planter.statementsWithin fuel)
    (Parser.statementsWithin fuel)
  body : ∀ role, Mirrors (fun result => [scopeNode result]) [] (Planter.bodyWithin fuel role)
    (Parser.bodyWithin fuel role)
  alternatives : Mirrors Alternatives.branches [] (Planter.alternativesWithin fuel)
    (Parser.alternativesWithin fuel)

section Step

variable {fuel : Nat} (before : Statements fuel)

include before

theorem statement_succ :
    Mirrors (fun stmt => [stmt.node]) [] (Planter.statementWithin (fuel + 1))
      (Parser.statementWithin (fuel + 1)) := by
  rw [Planter.statementWithin, Parser.statementWithin]
  apply read_bind .peek
  intro cursor
  generalize cursor.kind = kind
  split
  case h_1 =>
    apply bind (before.scope _)
    intro inner inside
    exact pure inside
  case h_2 =>
    apply bind variable_declaration
    intro decl inside
    exact grow rfl inside
  case h_3 =>
    apply read_bind .next
    intro _
    apply bind condition
    intro value first
    apply past (before.body _)
    intro inner second
    apply read_bind .span_from
    intro span
    apply grow_bind rfl (by simp [first, second, Node.children, scopeNode])
    intro id
    apply past before.alternatives
    intro rest others
    apply read_bind .span_from
    intro _
    exact grow rfl (by simp [others, Stmt.node, Node.children, Stmt.children])
  case h_4 =>
    apply read_bind .next
    intro _
    apply bind condition
    intro value first
    apply past (before.body _)
    intro inner second
    apply read_bind .span_from
    intro _
    exact grow rfl (by simp [first, second, Stmt.node, Node.children, Stmt.children, scopeNode])
  case h_5 =>
    apply read_bind .next
    intro _
    apply bind (before.body _)
    intro inner first
    apply read_bind .expect
    intro _
    apply past condition
    intro value second
    apply read_bind .expect
    intro _
    apply read_bind .span_from
    intro _
    exact grow rfl (by simp [first, second, Stmt.node, Node.children, Stmt.children, scopeNode])
  case h_6 =>
    apply read_bind .next
    intro _
    apply bind loop_clauses
    intro clauses first
    apply past (before.body _)
    intro inner second
    apply read_bind .span_from
    intro _
    exact grow rfl (by simp [first, second, Stmt.node, Node.children, Stmt.children, scopeNode])
  case h_7 => exact return_statement
  case h_8 => exact jump_statement
  case h_9 => exact label_statement
  case h_10 => exact state_change_statement
  case h_11 => exact read_bind .next fun _ => grow rfl rfl
  case h_12 =>
    try simp only
    exact expression_statement

theorem scope_succ (role : ScopeRole) :
    Mirrors (fun result => [scopeNode result]) [] (Planter.scopeWithin (fuel + 1) role)
      (Parser.scopeWithin (fuel + 1) role) := by
  rw [Planter.scopeWithin, Parser.scopeWithin]
  apply read_bind .expect
  intro _
  apply read_bind .fresh_scope
  intro id
  apply bind before.statements
  intro body inside
  apply read_bind .expect
  intro _
  exact read_bind .span_from fun _ => grow rfl inside

theorem statements_succ :
    Mirrors (List.map Stmt.node) [] (Planter.statementsWithin (fuel + 1))
      (Parser.statementsWithin (fuel + 1)) := by
  rw [Planter.statementsWithin, Parser.statementsWithin]
  apply read_bind .peek
  intro cursor
  split
  · exact pure rfl
  · apply bind (broken_statement _ before.statement)
    intro first own
    apply past before.statements
    intro rest others
    exact pure (by simp [own, others])

theorem body_succ (role : ScopeRole) :
    Mirrors (fun result => [scopeNode result]) [] (Planter.bodyWithin (fuel + 1) role)
      (Parser.bodyWithin (fuel + 1) role) := by
  rw [Planter.bodyWithin, Parser.bodyWithin]
  apply read_bind .peek
  intro cursor
  simp only
  generalize cursor.current.kind = kind
  split
  case h_1 => exact before.scope role
  case h_2 => exact fail fun _ => ⟨_, rfl, rfl⟩
  case h_3 =>
    try simp only
    apply read_bind .fresh_scope
    intro id
    apply bind before.statement
    intro stmt inside
    exact grow rfl inside

theorem alternatives_succ :
    Mirrors Alternatives.branches [] (Planter.alternativesWithin (fuel + 1))
      (Parser.alternativesWithin (fuel + 1)) := by
  rw [Planter.alternativesWithin, Parser.alternativesWithin]
  apply read_bind .peek
  intro cursor
  apply read_bind .accept
  intro behind
  split
  · apply read_bind .accept
    intro again
    split
    · apply bind condition
      intro value first
      apply past (before.body _)
      intro inner second
      apply read_bind .span_from
      intro span
      apply grow_bind rfl (by simp [first, second, Node.children, scopeNode])
      intro id
      apply past before.alternatives
      intro rest others
      exact pure (by simp [others, Alternatives.branches])
    · apply bind (before.body _)
      intro inner inside
      apply read_bind .span_from
      intro span
      exact grow_bind rfl inside fun id => pure rfl
  · exact pure rfl

end Step

theorem statements (fuel : Nat) : Statements fuel := by
  induction fuel with
  | zero =>
      exact ⟨mismatched, fun _ => mismatched, mismatched, fun _ => mismatched, mismatched⟩
  | succ fuel before =>
      exact ⟨statement_succ before, scope_succ before, statements_succ before, body_succ before,
        alternatives_succ before⟩

theorem scope (role : ScopeRole) :
    Mirrors (fun result => [scopeNode result]) [] (Planter.scope role) (Parser.scope role) := by
  unfold Planter.scope Parser.scope
  exact read_bind .peek fun cursor => (statements cursor.budget).scope role

end Mirrors

end Planter

end Lsl
