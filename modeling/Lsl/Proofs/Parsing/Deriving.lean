import Lsl.Proofs.Parsing.Phrases

/-!
The readers of phrases. Where a reader of expressions, of conditions or of statements with none inside
succeeds, what it gives is a phrase that runs from where it started to where it stops; where it fails,
a token ahead is at fault. The bound on its steps is never reached.
-/

set_option autoImplicit false

namespace Lsl

namespace Parser

theorem bind_of_ok {α β : Type} {reader : Parser α} {next : α → Parser β} {cursor after : Cursor}
    {value : α} (read : reader cursor = .ok value after) :
    (reader >>= next) cursor = next value after := by
  simp only [Bind.bind, EStateM.bind, read]

theorem bind_eq_ok {α β : Type} {reader : Parser α} {next : α → Parser β} {cursor last : Cursor}
    {result : β} (read : (reader >>= next) cursor = .ok result last) :
    ∃ value after, reader cursor = .ok value after ∧ next value after = .ok result last := by
  simp only [Bind.bind, EStateM.bind] at read
  cases first : reader cursor with
  | ok value after =>
      rw [first] at read
      exact ⟨value, after, rfl, read⟩
  | error error after =>
      rw [first] at read
      simp at read

theorem get_cursor (cursor : Cursor) : (EStateM.get : Parser Cursor) cursor = .ok cursor cursor :=
  rfl

theorem expect_found {cursor : Cursor} {kind : TokenKind} (found : cursor.kind = kind) :
    Parser.expect kind cursor = .ok cursor.current cursor.step := by
  simp only [Parser.expect, Parser.expectOr, get, getThe, MonadStateOf.get, Bind.bind,
    EStateM.bind, get_cursor, found, ↓reduceIte]
  rfl

/-- What the reader gives has one property, and where it fails, the error has another. -/
def Derives {α : Type} (fails : SyntaxError → Cursor → Prop) (reader : Parser α) (cursor : Cursor)
    (property : α → Cursor → Prop) : Prop :=
  match reader cursor with
  | .ok value after => property value after
  | .error error after => fails error after

namespace Derives

variable {α β : Type} {fails : SyntaxError → Cursor → Prop} {cursor : Cursor}

theorem pure {value : α} {property : α → Cursor → Prop} (holds : property value cursor) :
    Derives fails (Pure.pure value) cursor property :=
  holds

theorem bind {reader : Parser α} {next : α → Parser β} {middle : α → Cursor → Prop}
    {property : β → Cursor → Prop} (first : Derives fails reader cursor middle)
    (second : ∀ value after, middle value after → Derives fails (next value) after property) :
    Derives fails (reader >>= next) cursor property := by
  unfold Derives at first
  simp only [Derives, Bind.bind, EStateM.bind]
  cases read : reader cursor with
  | error error after =>
      rw [read] at first
      exact first
  | ok value after =>
      rw [read] at first
      exact second value after first

theorem later {reader : Parser α} {property : α → Cursor → Prop}
    {inner : SyntaxError → Cursor → Prop} (derives : Derives inner reader cursor property)
    (given : ∀ error after, inner error after → fails error after) :
    Derives fails reader cursor property := by
  unfold Derives at derives ⊢
  cases read : reader cursor with
  | ok value after =>
      rw [read] at derives
      exact derives
  | error error after =>
      rw [read] at derives
      exact given error after derives

theorem weaken {reader : Parser α} {middle property : α → Cursor → Prop}
    (derives : Derives fails reader cursor middle)
    (kept : ∀ value after, middle value after → property value after) :
    Derives fails reader cursor property := by
  unfold Derives at derives ⊢
  cases read : reader cursor with
  | ok value after =>
      rw [read] at derives
      exact kept value after derives
  | error error after =>
      rw [read] at derives
      exact derives

theorem ok {reader : Parser α} {property : α → Cursor → Prop} {value : α} {after : Cursor}
    (derives : Derives fails reader cursor property) (read : reader cursor = .ok value after) :
    property value after := by
  unfold Derives at derives
  rw [read] at derives
  exact derives

theorem error {reader : Parser α} {property : α → Cursor → Prop} {wrong : SyntaxError}
    {after : Cursor} (derives : Derives fails reader cursor property)
    (read : reader cursor = .error wrong after) : fails wrong after := by
  unfold Derives at derives
  rw [read] at derives
  exact derives

/-- A reader that cannot fail gives something. -/
theorem completes {reader : Parser α} {property : α → Cursor → Prop}
    (derives : Derives (fun _ _ => False) reader cursor property) :
    ∃ value after, reader cursor = .ok value after ∧ property value after := by
  cases read : reader cursor with
  | ok value after => exact ⟨value, after, rfl, derives.ok read⟩
  | error wrong after => exact (derives.error read).elim

theorem peek_bind {next : Cursor → Parser β} {property : β → Cursor → Prop}
    (rest : Derives fails (next cursor) cursor property) :
    Derives fails (Parser.peek >>= next) cursor property :=
  rest

theorem span_from_bind {start : Position} {next : Span → Parser β} {property : β → Cursor → Prop}
    (rest : Derives fails (next (cursor.spanFrom start)) cursor property) :
    Derives fails (Parser.spanFrom start >>= next) cursor property :=
  rest

theorem next_bind {next : Token → Parser β} {property : β → Cursor → Prop}
    (rest : Derives fails (next cursor.current) cursor.step property) :
    Derives fails (Parser.next >>= next) cursor property :=
  rest

/-- A token of one kind, and what comes of another. -/
theorem expect_or_else {kind : TokenKind} {expecting : String} {next : Token → Parser β}
    {property : β → Cursor → Prop}
    (present : cursor.kind = kind → Derives fails (next cursor.current) cursor.step property)
    (absent : cursor.kind ≠ kind → fails (cursor.mismatch expecting) cursor) :
    Derives fails (Parser.expectOr kind expecting >>= next) cursor property := by
  unfold Parser.expectOr
  rw [bind_assoc]
  apply peek_bind
  split
  · rename_i found
    exact present found
  · rename_i other
    exact absent other

section

variable (given : ∀ error after, cursor.Faults error after → fails error after)

include given

theorem mismatched {expecting : String} {property : α → Cursor → Prop}
    (listed : expecting ∈ expectations) (other : expecting ≠ Parser.afterExpression) :
    Derives fails (Parser.mismatched expecting) cursor property :=
  given _ _ (.missed (.here _) listed fun same => absurd same other)

theorem expect_or {kind : TokenKind} {expecting : String} {next : Token → Parser β}
    {property : β → Cursor → Prop} (listed : expecting ∈ expectations)
    (other : expecting ≠ Parser.afterExpression)
    (rest : cursor.kind = kind → Derives fails (next cursor.current) cursor.step property) :
    Derives fails (Parser.expectOr kind expecting >>= next) cursor property :=
  expect_or_else rest fun _ => given _ _ (.missed (.here _) listed fun same => absurd same other)

theorem expect {kind : TokenKind} {next : Token → Parser β} {property : β → Cursor → Prop}
    (listed : kind ∈ expectedKinds)
    (rest : cursor.kind = kind → Derives fails (next cursor.current) cursor.step property) :
    Derives fails (Parser.expect kind >>= next) cursor property := by
  have other : ∀ kind ∈ expectedKinds, kind.grammarName ≠ Parser.afterExpression := by decide
  have named : kind.grammarName ∈ expectations := by
    unfold expectations
    exact List.mem_append_left _ (List.mem_map_of_mem listed)
  exact expect_or given named (other kind listed) rest

theorem type {next : ValueType → Parser β} {property : β → Cursor → Prop}
    (rest : ∀ type, cursor.kind = .type → ValueType.ofKeyword? cursor.current.text = some type →
      Derives fails (next type) cursor.step property) :
    Derives fails (Parser.type >>= next) cursor property := by
  unfold Parser.type
  rw [bind_assoc]
  refine expect given (by decide) fun found => ?_
  have plain : cursor.kind.Plain := found ▸ (by decide : TokenKind.Plain .type)
  split
  · rename_i type named
    exact rest type found named
  · exact given _ _ (.written (.here _) plain (by decide : "TYPE" ∈ expectations) (by decide)
      (by simp))

theorem component_name {next : Component × Span → Parser β} {property : β → Cursor → Prop}
    (rest : ∀ part, cursor.kind = .identifier →
      Component.ofName? cursor.current.text = some part →
        Derives fails (next (part, cursor.current.span)) cursor.step property) :
    Derives fails (Parser.componentName >>= next) cursor property := by
  unfold Parser.componentName
  rw [bind_assoc]
  refine expect given (by decide) fun found => ?_
  have plain : cursor.kind.Plain := found ▸ (by decide : TokenKind.Plain .identifier)
  split
  · rename_i part named
    exact rest part found named
  · exact given _ _ (.written (.here _) plain
      (by decide : "\x7b'x', 'y', 'z', 's'\x7d" ∈ expectations) (by decide) (by simp))

end

theorem accept {kind : TokenKind} {taken skipped : Parser β} {property : β → Cursor → Prop}
    (present : cursor.kind = kind → Derives fails taken cursor.step property)
    (absent : cursor.kind ≠ kind → Derives fails skipped cursor property) :
    Derives fails (do if ← Parser.accept kind then taken else skipped) cursor property := by
  unfold Parser.accept
  rw [bind_assoc]
  apply peek_bind
  split
  · rename_i found
    exact present found
  · rename_i other
    exact absent other

/-- The readers of expressions derive phrases, with a bound on their steps that is large enough for
the tokens ahead. -/
structure Expressions (fuel : Nat) : Prop where
  expression : ∀ power cursor, cursor.close.kind = .endOfFile → 8 * cursor.ahead.length + 1 < fuel →
    Derives cursor.Faults (expressionWithin fuel power) cursor fun expr after =>
      (Phrase.expression power expr).Runs cursor after
  extend : ∀ power left start cursor, start.close.kind = .endOfFile →
    8 * cursor.ahead.length < fuel → (Phrase.chain power left).Runs start cursor →
      Derives start.Faults (extendWithin fuel power left) cursor fun expr after =>
        (Phrase.expression power expr).Runs start after
  operand : ∀ cursor, cursor.close.kind = .endOfFile → 8 * cursor.ahead.length < fuel →
    Derives cursor.Faults (operandWithin fuel) cursor fun expr after =>
      (Phrase.operand expr).Runs cursor after
  list : ∀ terminator cursor, cursor.close.kind = .endOfFile →
    8 * cursor.ahead.length + 3 < fuel →
      Derives cursor.Faults (listWithin fuel terminator) cursor fun list after =>
        (Phrase.list terminator list).Runs cursor after
  members : ∀ cursor, cursor.close.kind = .endOfFile → 8 * cursor.ahead.length + 2 < fuel →
    Derives cursor.Faults (membersWithin fuel) cursor fun exprs after =>
      (Phrase.members exprs).Runs cursor after

section Step

variable {fuel : Nat} (before : Expressions fuel) (closed : cursor.close.kind = .endOfFile)

include before closed

theorem expression_succ (power : Power) (enough : 8 * cursor.ahead.length < fuel) :
    Derives cursor.Faults (expressionWithin (fuel + 1) power) cursor fun expr after =>
      (Phrase.expression power expr).Runs cursor after := by
  rw [expressionWithin]
  apply bind (before.operand cursor closed enough)
  intro left after runs
  have fewer := runs.passes.length_le
  exact before.extend power left cursor after closed (by omega) (.first runs)

theorem list_succ (terminator : TokenKind) (enough : 8 * cursor.ahead.length + 2 < fuel) :
    Derives cursor.Faults (listWithin (fuel + 1) terminator) cursor fun list after =>
      (Phrase.list terminator list).Runs cursor after := by
  rw [listWithin]
  apply peek_bind
  split
  · rename_i ends
    exact pure (.nothing ends)
  · rename_i goes
    apply bind (before.members cursor closed enough)
    intro exprs after runs
    exact span_from_bind (pure (.listed goes runs))

theorem members_succ (enough : 8 * cursor.ahead.length + 1 < fuel) :
    Derives cursor.Faults (membersWithin (fuel + 1)) cursor fun exprs after =>
      (Phrase.members exprs).Runs cursor after := by
  rw [membersWithin]
  apply bind (before.expression .lowest cursor closed enough)
  intro first middle inner
  have fewer := Cursor.Advances.length_lt closed inner.moves
  refine accept (fun comma => ?_) fun _ => pure (.last inner)
  have passed := inner.passes.step (comma ▸ (by decide : TokenKind.Plain .comma))
  have shorter := middle.reaches_step.ahead.length_le
  apply bind ((before.members middle.step (passed.closed closed) (by omega)).later passed.faults)
  intro rest after others
  exact pure (.more inner comma others)

theorem extend_succ {start : Cursor} {power : Power} {left : Expr}
    (chain : (Phrase.chain power left).Runs start cursor)
    (enough : 8 * cursor.ahead.length ≤ fuel) (shut : start.close.kind = .endOfFile) :
    Derives start.Faults (extendWithin (fuel + 1) power left) cursor fun expr after =>
      (Phrase.expression power expr).Runs start after := by
  have passed := chain.passes
  -- What is taken along makes a longer chain, with fewer tokens ahead.
  have onward {expr : Expr} {after : Cursor} (longer : (Phrase.chain power expr).Runs start after)
      (further : cursor.Advances after) :
      Derives start.Faults (extendWithin fuel power expr) after fun expr last =>
        (Phrase.expression power expr).Runs start last := by
    have fewer := further.length_lt closed
    exact before.extend power expr start after shut (by omega) longer
  have stepped (operator : PostfixOperator) (found : cursor.kind = operator.kind) :
      Derives start.Faults (Parser.stepBehind left operator >>= extendWithin fuel power) cursor
        fun expr last => (Phrase.expression power expr).Runs start last := by
    have plain : cursor.kind.Plain := found ▸ (by cases operator <;> decide)
    have fixed : cursor.kind.isAssignment = false := found ▸ (by cases operator <;> rfl)
    unfold Parser.stepBehind
    split
    · rename_i assignable
      exact onward (.step operator chain found assignable) (.single plain)
    · exact .missed passed (by decide) fun _ => fixed
  rw [extendWithin]
  apply peek_bind
  split
  · rename_i stops
    exact pure (.expression chain stops)
  · rename_i binds
    split
    · exact stepped .increment ‹_›
    · exact stepped .decrement ‹_›
    · rename_i dot
      have plain : cursor.kind.Plain := dot ▸ (by decide)
      unfold Parser.memberBehind
      split
      · rename_i reference
        rw [bind_assoc]
        apply next_bind
        rw [bind_assoc]
        refine component_name (passed.step plain).faults fun part name named => ?_
        exact onward (.component chain dot reference name named)
          ((Cursor.Advances.single plain).trans (.token (name ▸ (by decide)) (.here _)))
      · exact .missed passed (by decide) fun _ => dot ▸ rfl
    · rename_i plus minus dot
      split
      · rename_i absent
        rw [TokenKind.power_of_none absent plus minus dot] at binds
        exact absurd (Nat.zero_le _) binds
      · rename_i operator found
        have plain := TokenKind.plain_of_binary found
        split
        · rename_i refused
          rw [Bool.and_eq_true, Bool.not_eq_true'] at refused
          exact .refused (.here _) chain refused.2 (by simp [TokenKind.isAssignment, found, refused.1])
        · rename_i admitted
          have fewer := Cursor.length_step_lt closed plain.2.2
          have beyond := passed.step plain
          have shut : cursor.step.close.kind = .endOfFile := beyond.closed shut
          apply next_bind
          apply bind ((before.expression _ cursor.step shut (by omega)).later beyond.faults)
          intro right after inner
          refine onward (.binary chain (Nat.lt_of_not_le binds) found ?_ inner)
            ⟨plain, inner.passes⟩
          simpa using admitted

/-- Past its first token an operand has room for whatever is in it. -/
theorem operand_succ (enough : 8 * cursor.ahead.length ≤ fuel) :
    Derives cursor.Faults (operandWithin (fuel + 1)) cursor fun expr after =>
      (Phrase.operand expr).Runs cursor after := by
  have inner (power : Power) {after : Cursor} (advances : cursor.Advances after) :
      Derives cursor.Faults (expressionWithin fuel power) after fun expr last =>
        (Phrase.expression power expr).Runs after last := by
    have fewer := advances.length_lt closed
    exact (before.expression power after (advances.passes.closed closed) (by omega)).later
      advances.passes.faults
  have elements (terminator : TokenKind) {after : Cursor} (advances : cursor.Advances after) :
      Derives cursor.Faults (listWithin fuel terminator) after fun list last =>
        (Phrase.list terminator list).Runs after last := by
    have fewer := advances.length_lt closed
    exact (before.list terminator after (advances.passes.closed closed) (by omega)).later
      advances.passes.faults
  have first {kind : TokenKind} (found : cursor.current.kind = kind) (plain : kind.Plain) :
      cursor.Advances cursor.step := .single (by rw [Cursor.kind, found]; exact plain)
  have token {place after : Cursor} {kind : TokenKind} (found : place.kind = kind)
      (plain : kind.Plain) (rest : place.step.Passes after) : place.Passes after :=
    .token (found ▸ plain) rest
  rw [operandWithin]
  apply peek_bind
  simp only
  split
  case h_1 found | h_2 found | h_3 found | h_4 found =>
    apply next_bind
    exact pure (.literal (by simp only [Token.literal?, found]))
  case h_5 found =>
    have begun := first found (by decide)
    apply next_bind
    refine accept (fun opens => ?_) fun _ => pure (.reference found)
    have further := begun.trans (token opens (by decide) (.here _))
    apply bind (elements .closeParen further)
    intro arguments middle runs
    refine expect (further.trans runs.passes).passes.faults (by decide) fun closes => ?_
    exact span_from_bind (pure (.call found opens runs closes))
  case h_6 found =>
    have begun := first found (by decide)
    apply next_bind
    apply peek_bind
    split
    · refine type begun.passes.faults fun target word named => ?_
      have further := begun.trans (token word (by decide) (.here _))
      refine expect further.passes.faults (by decide) fun closes => ?_
      apply bind (inner .unary (further.trans (token closes (by decide) (.here _))))
      intro operand after runs
      exact span_from_bind (pure (.cast found word named closes runs))
    · apply bind (inner .lowest begun)
      intro inside middle runs
      refine expect (begun.trans runs.passes).passes.faults (by decide) fun closes => ?_
      exact span_from_bind (pure (.grouped found runs closes))
  case h_7 found =>
    have begun := first found (by decide)
    apply next_bind
    apply bind (elements .closeBracket begun)
    intro list middle runs
    refine expect (begun.trans runs.passes).passes.faults (by decide) fun closes => ?_
    exact span_from_bind (pure (.elements found runs closes))
  case h_8 found =>
    have begun := first found (by decide)
    apply next_bind
    apply bind (inner .lowest begun)
    intro x _ one
    refine expect (begun.trans one.passes).passes.faults (by decide) fun comma => ?_
    have second := (begun.trans one.passes).trans (token comma (by decide) (.here _))
    apply bind (inner .lowest second)
    intro y _ two
    refine expect (second.trans two.passes).passes.faults (by decide) fun again => ?_
    have third := (second.trans two.passes).trans (token again (by decide) (.here _))
    apply bind (inner .relational third)
    intro z _ three
    have fourth := third.trans three.passes
    refine accept (fun closes => ?_) fun _ => accept (fun more => ?_) fun _ => ?_
    · exact span_from_bind (pure (.vector found one comma two again three closes))
    · have fifth := fourth.trans (token more (by decide) (.here _))
      apply bind (inner .relational fifth)
      intro s _ four
      refine expect (fifth.trans four.passes).passes.faults (by decide) fun closes => ?_
      exact span_from_bind (pure (.rotation found one comma two again three more four closes))
    · exact mismatched fourth.passes.faults (by decide) (by decide)
  case h_9 =>
    split
    · rename_i operator found
      have begun : cursor.Advances cursor.step := .single (TokenKind.plain_of_prefixed found)
      apply next_bind
      apply bind (inner .unary begun)
      intro operand after runs
      exact pure (.prefixed found runs)
    · exact mismatched (Cursor.Passes.here _).faults (by decide) (by decide)

end Step

theorem expressions (fuel : Nat) : Expressions fuel := by
  -- Eight steps for each token ahead are enough: calls in one place go down in rank.
  induction fuel with
  | zero =>
      exact ⟨fun _ _ _ enough => by omega, fun _ _ _ _ _ enough => by omega,
        fun _ _ enough => by omega, fun _ _ _ enough => by omega, fun _ _ enough => by omega⟩
  | succ fuel before =>
      exact ⟨fun power _ closed enough => expression_succ before closed power (by omega),
        fun power left start cursor closed enough chain =>
          extend_succ before (chain.passes.closed closed) chain (by omega) closed,
        fun _ closed enough => operand_succ before closed (by omega),
        fun terminator _ closed enough => list_succ before closed terminator (by omega),
        fun _ closed enough => members_succ before closed (by omega)⟩

theorem expression (closed : cursor.close.kind = .endOfFile) :
    Derives cursor.Faults Parser.expression cursor fun expr after =>
      (Phrase.expression .lowest expr).Runs cursor after :=
  peek_bind ((expressions _).expression .lowest cursor closed (by rw [Cursor.budget]; omega))

theorem expression_list {terminator : TokenKind} (closed : cursor.close.kind = .endOfFile) :
    Derives cursor.Faults (Parser.expressionList terminator) cursor fun list after =>
      (Phrase.list terminator list).Runs cursor after :=
  peek_bind ((expressions _).list terminator cursor closed (by rw [Cursor.budget]; omega))

theorem condition (closed : cursor.close.kind = .endOfFile) :
    Derives cursor.Faults Parser.condition cursor fun value after =>
      (Phrase.condition value).Runs cursor after := by
  unfold Parser.condition
  refine expect (Cursor.Passes.here _).faults (by decide) fun opens => ?_
  have begun : cursor.Passes cursor.step := .token (opens ▸ by decide) (.here _)
  apply bind ((expression (begun.closed closed)).later begun.faults)
  intro value middle inner
  refine expect (begun.trans inner.passes).faults (by decide) fun closes => ?_
  exact pure (.condition opens inner closes)

theorem optional_list {terminator : TokenKind} (closed : cursor.close.kind = .endOfFile) :
    Derives cursor.Faults (Parser.optionalList terminator) cursor fun list after =>
      (Phrase.optionalList terminator list).Runs cursor after := by
  unfold Parser.optionalList
  apply peek_bind
  split
  · rename_i ends
    exact pure (.noList ends)
  · rename_i goes
    apply bind (expression_list closed)
    intro list after inner
    exact pure (.someList goes inner)

theorem optional_expression (closed : cursor.close.kind = .endOfFile) :
    Derives cursor.Faults Parser.optionalExpression cursor fun value after =>
      (Phrase.optionalExpression value).Runs cursor after := by
  unfold Parser.optionalExpression
  apply peek_bind
  split
  · rename_i ends
    exact pure (.noValue ends)
  · rename_i goes
    apply bind (expression closed)
    intro value after inner
    exact pure (.someValue goes inner)

theorem loop_clauses (closed : cursor.close.kind = .endOfFile) :
    Derives cursor.Faults Parser.loopClauses cursor fun clauses after =>
      (Phrase.loopClauses clauses.1 clauses.2.1 clauses.2.2).Runs cursor after := by
  unfold Parser.loopClauses
  refine expect (Cursor.Passes.here _).faults (by decide) fun opens => ?_
  have begun : cursor.Passes cursor.step := .token (opens ▸ by decide) (.here _)
  apply bind ((optional_list (begun.closed closed)).later begun.faults)
  intro init first one
  have second := begun.trans one.passes
  refine expect second.faults (by decide) fun ends => ?_
  have third := second.step (ends ▸ by decide)
  apply bind ((optional_expression (third.closed closed)).later third.faults)
  intro value middle two
  have fourth := third.trans two.passes
  refine expect fourth.faults (by decide) fun again => ?_
  have fifth := fourth.step (again ▸ by decide)
  apply bind ((optional_list (fifth.closed closed)).later fifth.faults)
  intro afterthought last three
  refine expect (fifth.trans three.passes).faults (by decide) fun closes => ?_
  exact pure (.loopClauses opens one ends two again three closes)

theorem variable_declaration (closed : cursor.close.kind = .endOfFile) :
    Derives cursor.Faults Parser.variableDeclaration cursor fun result after =>
      (Phrase.declaration result.1 result.2).Runs cursor after := by
  unfold Parser.variableDeclaration
  apply peek_bind
  refine type (Cursor.Passes.here _).faults fun type word named => ?_
  have first : cursor.Passes cursor.step := .token (word ▸ by decide) (.here _)
  refine expect first.faults (by decide) fun name => ?_
  have second := first.step (name ▸ by decide)
  refine accept (fun sets => ?_) fun _ => ?_
  · have third := second.step (sets ▸ by decide)
    apply bind ((expression (third.closed closed)).later third.faults)
    intro value middle inner
    refine expect (third.trans inner.passes).faults (by decide) fun ends => ?_
    exact span_from_bind (pure (.set word named name sets inner ends))
  · refine expect_or second.faults (by decide) (by decide) fun ends => ?_
    exact span_from_bind (pure (.unset word named name ends))

theorem return_statement (word : cursor.kind = .returnWord)
    (closed : cursor.close.kind = .endOfFile) :
    Derives cursor.Faults Parser.returnStatement cursor fun stmt after =>
      (Phrase.statement stmt).Runs cursor after := by
  have begun : cursor.Passes cursor.step := .token (word ▸ by decide) (.here _)
  unfold Parser.returnStatement
  apply next_bind
  apply bind ((optional_expression (begun.closed closed)).later begun.faults)
  intro value middle inner
  refine expect (begun.trans inner.passes).faults (by decide) fun ends => ?_
  exact span_from_bind (pure (.giveBack word inner ends))

/-- A word with a name behind it. -/
theorem named_statement (build : Span → String → Stmt) (plain : cursor.kind.Plain)
    (runs : cursor.step.kind = .identifier → cursor.step.step.kind = .semicolon →
      (Phrase.statement (build (cursor.step.step.step.spanFrom cursor.start)
        cursor.step.current.text)).Runs cursor cursor.step.step.step) :
    Derives cursor.Faults (do
      let start := (← Parser.next).span.start
      let name := (← Parser.expect .identifier).text
      let _ ← Parser.expect .semicolon
      return build (← Parser.spanFrom start) name) cursor fun stmt after =>
      (Phrase.statement stmt).Runs cursor after := by
  have begun : cursor.Passes cursor.step := .token plain (.here _)
  apply next_bind
  refine expect begun.faults (by decide) fun name => ?_
  refine expect (begun.step (name ▸ by decide)).faults (by decide) fun ends => ?_
  exact span_from_bind (pure (runs name ends))

theorem state_change_statement (word : cursor.kind = .stateWord) :
    Derives cursor.Faults Parser.stateChangeStatement cursor fun stmt after =>
      (Phrase.statement stmt).Runs cursor after := by
  have begun : cursor.Passes cursor.step := .token (word ▸ by decide) (.here _)
  unfold Parser.stateChangeStatement Parser.stateName
  apply next_bind
  rw [bind_assoc]
  apply peek_bind
  split
  · rename_i name
    have plain : cursor.step.kind.Plain := by
      rcases name with word | name
      · exact word ▸ by decide
      · exact name ▸ by decide
    rw [bind_assoc]
    apply next_bind
    refine expect (begun.step plain).faults (by decide) fun ends => ?_
    exact span_from_bind (pure (.changeState word name ends))
  · exact mismatched begun.faults (by decide) (by decide)

theorem expression_statement (closed : cursor.close.kind = .endOfFile) :
    Derives cursor.Faults Parser.expressionStatement cursor fun stmt after =>
      (Phrase.statement stmt).Runs cursor after := by
  unfold Parser.expressionStatement
  apply bind (expression closed)
  intro value middle inner
  refine expect inner.passes.faults (by decide) fun ends => ?_
  exact span_from_bind (pure (.perform inner ends))

end Derives

end Parser

end Lsl
