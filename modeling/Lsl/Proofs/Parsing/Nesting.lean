import Lsl.Proofs.Parsing.Spanning

/-!
Expressions and statements span what is inside of them. A statement that could not be read is
spanned by the node in its place, since at least one token of it is passed.
-/

set_option autoImplicit false

namespace Lsl

open Lsl.Cursor (Holds Stands Onward)

/-- The nodes of what is read fill what is between the cursors. What may be empty stops where the
next token starts. -/
def Phrase.Nests (places : List Position) (phrase : Phrase) (cursor after : Cursor) : Prop :=
  match phrase with
  | expression _ expr | chain _ expr | operand expr | condition expr =>
    cursor.Covers places after [.expr expr]
  | list _ exprs => ∀ role, cursor.Spans places after [.exprList role exprs]
  | members exprs => cursor.Covers places after (exprs.map .expr)
  | optionalList _ exprs =>
    ∀ role, cursor.Spans places after (exprs.toList.map (.exprList role))
  | optionalExpression value => cursor.Spans places after (value.toList.map .expr)
  | loopClauses init value afterthought =>
    cursor.Covers places after (init.toList.map (.exprList .loopInit) ++ value.toList.map .expr ++
      afterthought.toList.map (.exprList .loopAfterthought))
  | declaration span decl => ∀ node : Node, node.span = span →
    node.children = decl.initializer.toList.map .expr → cursor.Covers places after [node]
  | statement stmt => cursor.Covers places after [stmt.node]

section

variable {places : List Position} {cursor middle after : Cursor}

theorem Token.literal_fills {expr : Expr} (known : cursor.current.literal? = some expr) :
    cursor.Covers places cursor.step [.expr expr] := by
  have plain : cursor.kind.Plain := Token.plain_of_literal known
  unfold Token.literal? at known
  split at known
  case h_5 => cases known
  all_goals
    cases known
    exact .token plain rfl rfl

theorem Cursor.Holds.perform {value : Expr} (inner : cursor.Covers places middle [.expr value]) :
    cursor.Covers places middle.step
      [Stmt.node (.perform { span := middle.step.spanFrom value.span.start } value)] := by
  refine ⟨inner.onward.trans .step, fun marked => ?_⟩
  obtain ⟨stepped, further⟩ := Onward.step (inner.onward marked).1
  obtain ⟨above, below, genuine⟩ := (inner.fills marked).expr
  have inside := (inner.fills marked).tight.widen (Nat.le_refl _) (Nat.le_trans below further.stop)
  have span := stepped.spanned genuine.start inside.forward
  have whole : Fills places _ _
      [Stmt.node (.perform { span := middle.step.spanFrom value.span.start } value)] :=
    inside.node span (Nat.le_refl _) (Nat.le_refl _)
  exact whole.widen above (Nat.le_refl _)

theorem Phrase.Runs.nests {phrase : Phrase} (runs : phrase.Runs cursor after) :
    phrase.Nests places cursor after := by
  have later {place last : Cursor} {nodes : List Node} (inner : place.step.Covers places last nodes) :
      place.Covers places last nodes := inner.later .step
  induction runs with
  | expression _ _ chain => exact chain
  | first _ operand => exact operand
  | step operator _ found _ chain =>
      have plain := found ▸ (by cases operator <;> decide : operator.kind.Plain)
      exact (Stands.of_node chain).merged (.token plain) rfl
        (fun marked => (chain.fills marked).tight) (.inl rfl) (.inl rfl)
  | component _ dot _ name _ chain =>
      exact (Stands.of_node chain).merged ((Stands.token (name ▸ by decide)).later .step) rfl
        (fun marked => (chain.fills marked).tight) (.inl rfl) (.inl rfl)
  | binary _ _ _ _ _ left right =>
      have both := left.loose.append .step right
      refine (Stands.of_node left).merged ((Stands.of_node right).later .step) rfl (fun marked => ?_)
        (.inl rfl) (.inr rfl)
      have ordered := (both.fills marked).ordered
      have between := List.rel_of_pairwise_cons ordered (List.mem_singleton_self _)
      have front := (left.fills marked).tight.widen (Nat.le_refl _) between
      exact front.append (right.fills (left.onward.trans .step marked).1).tight
  | literal known => exact Token.literal_fills known
  | reference found => exact .token (found ▸ by decide) rfl rfl
  | call _ _ _ closes inner =>
      exact (later (later ((inner .arguments).closed closes (by decide)))).around rfl
  | cast _ _ _ _ _ inner => exact (later (later (later inner))).around rfl
  | grouped _ _ _ inner => exact (later (inner.longer .step)).around rfl
  | elements _ _ closes inner =>
      exact (later ((inner .elements).closed closes (by decide))).around rfl
  | vector _ _ _ _ _ _ _ one two three =>
      have whole := (one.loose.append .step two.loose).append .step three
      exact (later (whole.longer .step)).around rfl
  | rotation _ _ _ _ _ _ _ _ _ one two three four =>
      have whole := ((one.loose.append .step two.loose).append .step three.loose).append .step four
      exact (later (whole.longer .step)).around rfl
  | prefixed found _ inner =>
      exact (Stands.token (TokenKind.plain_of_prefixed found)).merged (.of_node inner) rfl
        (fun marked => (inner.fills (Onward.step marked).1).tight) (.inr rfl) (.inr rfl)
  | nothing =>
      refine fun role => ⟨.refl, fun marked => ?_⟩
      have whole : Fills places _ _ [.exprList role ⟨.point _, []⟩] :=
        .leaf rfl ⟨marked.start_mem, marked.start_mem, Nat.le_refl _⟩
      exact whole
  | @listed _ exprs cursor after _ _ inner =>
      intro role
      let list : ExprList := ⟨after.spanFrom cursor.start, exprs⟩
      have inside : cursor.Covers places after (Node.exprList role list).children := inner
      exact (inside.around rfl).loose
  | last _ inner => exact inner
  | more _ _ _ inner rest => exact inner.loose.append .step rest
  | condition _ _ _ inner => exact later (inner.longer .step)
  | noList => exact fun role => .none
  | noValue => exact Holds.none
  | someList _ _ inner => exact inner
  | @someValue value cursor after _ _ inner =>
      have inside : cursor.Covers places after [.expr value] := inner
      exact inside.loose
  | @loopClauses _ _ value _ first second _ _ _ _ _ _ _ closes one two three =>
      have test : first.step.Spans places second (value.toList.map .expr) := two
      have whole := ((one .loopInit).append .step test).append .step (three .loopAfterthought)
      exact later (whole.closed closes (by decide))
  | unset word named name ends =>
      intro node span children
      refine Holds.around ?_ span
      rw [children]
      exact .bare (Phrase.Runs.moves (.unset word named name ends))
  | set _ _ _ _ _ _ inner =>
      intro node span children
      refine Holds.around ?_ span
      rw [children]
      exact later (later (later (inner.longer .step)))
  | declare _ inner => exact inner _ rfl rfl
  | @giveBack value cursor middle _ _ ends inner =>
      have inside : cursor.step.Spans places middle (value.toList.map .expr) := inner
      exact (later (inside.closed ends (by decide))).around rfl
  | jump word name ends => exact (Holds.bare (Phrase.Runs.moves (.jump word name ends))).around rfl
  | label word name ends => exact (Holds.bare (Phrase.Runs.moves (.label word name ends))).around rfl
  | changeState word name ends =>
      exact (Holds.bare (Phrase.Runs.moves (.changeState word name ends))).around rfl
  | empty ends => exact .token (ends ▸ by decide) rfl rfl
  | perform _ _ inner => exact inner.perform

theorem Cursor.Holds.broken (context : BrokenContext) (onward : cursor.Onward places after)
    (shorter : cursor.close.kind = .endOfFile → after.ahead.length < cursor.ahead.length) :
    cursor.Covers places after [.broken context (after.brokenSpan cursor.start)] := by
  refine ⟨onward, fun marked => ?_⟩
  obtain ⟨remarked, further⟩ := onward marked
  have moved : cursor.start.offset ≤ after.stop.offset := by
    rcases further.moved with same | moved
    · have fewer := shorter marked.closed
      rw [same] at fewer
      exact absurd fewer (Nat.lt_irrefl _)
    · exact moved
  have span : after.brokenSpan cursor.start = after.spanFrom cursor.start :=
    if_neg (Nat.not_lt_of_le moved)
  have whole : Fills places _ _ [.broken context (after.spanFrom cursor.start)] :=
    .leaf rfl (remarked.spanned marked.start_mem moved)
  rw [span]
  exact whole

/-- The nodes of what is read fill what is between the cursors. -/
def Clause.Nests (places : List Position) (clause : Clause) (cursor after : Cursor) : Prop :=
  match clause with
  | statement stmt | turn stmt => cursor.Covers places after [stmt.node]
  | scope _ info inside | body _ info inside => cursor.Covers places after [.scope info inside]
  | statements inside => cursor.Spans places after (inside.map Stmt.node)
  | alternatives rest => cursor.Trails places after rest.branches
  | begun | failure _ => True

theorem Clause.Runs.nests {clause : Clause} (runs : clause.Runs cursor after) :
    clause.Nests places cursor after := by
  have later {place last : Cursor} {nodes : List Node} (inner : place.step.Covers places last nodes) :
      place.Covers places last nodes := inner.later .step
  induction runs with
  | plain inner => exact inner.nests
  | block _ inner | read _ inner | braced _ inner => exact inner
  | @branch value info inside rest cursor first second after _ test _ _ inner others =>
      have condition : cursor.step.Covers places first [.expr value] := test.nests
      have own : cursor.Covers places second
          [.ifBranch (second.spanFrom cursor.start) value info inside] :=
        (later (condition.loose.append .refl inner)).around rfl
      exact (own.trail others).around rfl
  | @whileLoop value _ _ cursor first _ _ test _ inner =>
      have condition : cursor.step.Covers places first [.expr value] := test.nests
      exact (later (condition.loose.append .refl inner)).around rfl
  | @doLoop value _ _ _ first second _ _ _ test _ inner =>
      have condition : first.step.Covers places second [.expr value] := test.nests
      exact (later ((inner.loose.append .step condition).longer .step)).around rfl
  | @forLoop init afterthought value _ _ cursor first _ _ clauses _ inner =>
      have head : cursor.step.Covers places first _ := clauses.nests
      exact (later (head.loose.append .refl inner)).around rfl
  | @scope _ body cursor last _ _ closes inner =>
      have inside : cursor.step.Spans places last (body.map Stmt.node) :=
        inner.later .numbered
      exact (later (inside.closed closes (by decide))).around rfl
  | ended => exact Holds.none
  | @followed stmt rest cursor middle after _ _ _ _ first others =>
      have front : cursor.Covers places middle [stmt.node] := first
      exact front.loose.append .refl others
  | @broken error _ _ inside goes inner =>
      obtain ⟨reached, raises⟩ := inner.carried (.onward places)
      refine .broken .statement
        (Cursor.abandoned_carried (.onward places) reached (raises error rfl)) fun closed => ?_
      exact Cursor.abandoned_shorter inner.reaches closed goes
        (fun _ rest same => Parser.statement_skip_pos rest (same ▸ inside)) error
  | @single role stmt cursor after _ _ inner =>
      have same : stmt.node.span = stmt.span := by cases stmt <;> rfl
      refine ⟨Onward.numbered.trans inner.onward, fun marked => ?_⟩
      have fills := inner.fills (Onward.numbered marked).1
      obtain ⟨above, below, genuine⟩ := fills.alone
      have inside := fills.tight
      rw [same] at above below genuine inside
      have whole : Fills places _ _
          [.scope ⟨stmt.span, cursor.nextScope, role, true, .live⟩ [stmt]] :=
        inside.node genuine (Nat.le_refl _) (Nat.le_refl _)
      exact whole.widen above below
  | done => exact ⟨.refl, fun _ => .nil (Nat.le_refl _)⟩
  | @elseIf value info inside rest cursor first second after _ _ test _ _ inner others =>
      have condition : cursor.step.step.Covers places first [.expr value] := test.nests
      have own : cursor.Covers places second
          [.elseIfBranch (second.spanFrom cursor.start) value info inside] :=
        (later (later (condition.loose.append .refl
          inner))).around rfl
      exact own.trailing.trail others
  | @otherwise info inside cursor after _ _ inner =>
      have own : cursor.Covers places after
          [.elseBranch (after.spanFrom cursor.start) info inside] := (later inner).around rfl
      exact own.trailing
  | _ => trivial

end

end Lsl
