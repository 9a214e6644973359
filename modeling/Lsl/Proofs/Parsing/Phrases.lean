import Lsl.Parsing.Statement
import Lsl.Proofs.Parsing.Balance
import Lsl.Proofs.Syntax.Bodies

/-!
What is read without opening a scope: expressions, and statements with no statement inside. A phrase
runs from one cursor to another if it is written between them. What holds of all that readers give is
proved by induction on runs, one case for each form that a phrase has.
-/

set_option autoImplicit false

namespace Lsl

/-- The kinds of tokens that readers ask for by name. -/
def expectedKinds : List TokenKind :=
  [.identifier, .type, .openParen, .closeParen, .closeBracket, .openCurly, .closeCurly, .comma,
    .semicolon, .greater, .whileWord, .stateWord, .elseWord]

/-- What stands instead of an undeclared body without braces. -/
def bodyStart : String := "a statement, declarations need an enclosing '\x7b'"

/-- All that readers say they expect. -/
def expectations : List String :=
  expectedKinds.map TokenKind.grammarName ++
    [Parser.expressionStart, Parser.afterExpression, Parser.topLevelStart, Parser.stateStart,
      "\x7b',', '>'\x7d", "\x7b',', ')'\x7d", "\x7b'=', ';'\x7d", "\x7b'default', ID\x7d",
      "\x7b'x', 'y', 'z', 's'\x7d", bodyStart]

def SyntaxError.mismatched (token : Token) (expecting : String) : SyntaxError :=
  ⟨.grammar, token.text, "mismatched input '" ++ token.text ++ "' expecting " ++ expecting,
    token.span⟩

theorem TokenKind.plain_of_binary {kind : TokenKind} {operator : BinaryOperator}
    (found : kind.binaryOperator? = some operator) : kind.Plain := by
  refine ⟨?_, ?_, ?_⟩ <;> rintro rfl <;> simp [binaryOperator?] at found

theorem TokenKind.plain_of_prefixed {kind : TokenKind} {operator : PrefixOperator}
    (found : kind.prefixOperator? = some operator) : kind.Plain := by
  refine ⟨?_, ?_, ?_⟩ <;> rintro rfl <;> simp [prefixOperator?] at found

theorem TokenKind.power_of_none {kind : TokenKind} (absent : kind.binaryOperator? = none)
    (plus : kind ≠ .plusPlus) (minus : kind ≠ .minusMinus) (dot : kind ≠ .dot) :
    kind.power = .lowest := by
  unfold TokenKind.power
  split
  · exact absurd rfl plus
  · exact absurd rfl minus
  · exact absurd rfl dot
  · rw [absent]

def Token.literal? (token : Token) : Option Expr :=
  match token.kind with
  | .integer => some (.integer { span := token.span } token.text)
  | .hex => some (.hex { span := token.span } token.text)
  | .float => some (.float { span := token.span } token.text)
  | .string => some (.string { span := token.span } token.text)
  | _ => none

/-- What a reader gives, with what it was asked for. A chain is an operand with some of the operators
behind it. -/
inductive Phrase where
  | expression (power : Power) (expr : Expr)
  | chain (power : Power) (expr : Expr)
  | operand (expr : Expr)
  | list (terminator : TokenKind) (list : ExprList)
  | members (exprs : List Expr)
  | condition (value : Expr)
  | optionalList (terminator : TokenKind) (list : Option ExprList)
  | optionalExpression (value : Option Expr)
  | loopClauses (init : Option ExprList) (condition : Option Expr)
    (afterthought : Option ExprList)
  | declaration (span : Span) (decl : Variable)
  | statement (stmt : Stmt)

/-- The expressions that stand in a phrase, apart from those inside of others. -/
def Phrase.exprs : Phrase → List Expr
  | expression _ expr | chain _ expr | operand expr | condition expr => [expr]
  | list _ found => found.members
  | members found => found
  | optionalList _ found => Stmt.listExprs found
  | optionalExpression value => value.toList
  | loopClauses init test afterthought =>
    Stmt.listExprs init ++ test.toList ++ Stmt.listExprs afterthought
  | declaration _ decl => decl.initializer.toList
  | statement stmt => stmt.exprs

def Phrase.words : Phrase → List Word
  | expression _ expr | chain _ expr | operand expr => expr.words
  | list _ found => Expr.listWords found.members
  | members found => Expr.listWords found
  | condition value => value.conditionWords
  | optionalList _ found => ExprList.optionWords found
  | optionalExpression value => Expr.optionWords value
  | loopClauses init test afterthought =>
    .mark .openParen :: ExprList.optionWords init ++ .mark .semicolon :: Expr.optionWords test ++
      .mark .semicolon :: ExprList.optionWords afterthought ++ [.mark .closeParen]
  | declaration _ decl => decl.words
  | statement stmt => stmt.words

namespace Cursor

/-- Tokens are stepped over one by one, and none of them is a brace. -/
inductive Passes : Cursor → Cursor → Prop
  | here (cursor : Cursor) : Passes cursor cursor
  | token {cursor after : Cursor} (plain : cursor.kind.Plain) (rest : Passes cursor.step after) :
      Passes cursor after

/-- At least one token is stepped over. -/
def Advances (cursor after : Cursor) : Prop := cursor.kind.Plain ∧ cursor.step.Passes after

end Cursor

inductive Phrase.Runs : Phrase → Cursor → Cursor → Prop where
  | expression {power : Power} {expr : Expr} {cursor after : Cursor}
      (chain : Runs (.chain power expr) cursor after)
      (stops : after.kind.power.rank ≤ power.rank) : Runs (.expression power expr) cursor after
  | first {power : Power} {expr : Expr} {cursor after : Cursor}
      (operand : Runs (.operand expr) cursor after) : Runs (.chain power expr) cursor after
  | step {power : Power} {left : Expr} {cursor middle : Cursor} (operator : PostfixOperator)
      (chain : Runs (.chain power left) cursor middle) (found : middle.kind = operator.kind)
      (assignable : left.isAssignable = true) :
      Runs (.chain power
        (.postfixed { span := left.span.merge middle.current.span } operator left)) cursor middle.step
  | component {power : Power} {left : Expr} {part : Component} {cursor middle : Cursor}
      (chain : Runs (.chain power left) cursor middle) (dot : middle.kind = .dot)
      (reference : left.isReference = true) (name : middle.step.kind = .identifier)
      (named : Component.ofName? middle.step.current.text = some part) :
      Runs (.chain power
        (.component { span := left.span.merge middle.step.current.span } part left)) cursor
        middle.step.step
  | binary {power : Power} {left right : Expr} {operator : BinaryOperator}
      {cursor middle after : Cursor} (chain : Runs (.chain power left) cursor middle)
      (binds : power.rank < middle.kind.power.rank)
      (found : middle.kind.binaryOperator? = some operator)
      (admitted : operator.isAssignment = true → left.isAssignable = true)
      (inner : Runs (.expression (if operator.isAssignment then .lowest else operator.power) right)
        middle.step after) :
      Runs (.chain power (.binary { span := left.span.merge right.span } operator left right)) cursor
        after
  | literal {expr : Expr} {cursor : Cursor} (known : cursor.current.literal? = some expr) :
      Runs (.operand expr) cursor cursor.step
  | reference {cursor : Cursor} (found : cursor.kind = .identifier) :
      Runs (.operand (.reference { span := cursor.current.span } cursor.current.text .unresolved))
        cursor cursor.step
  | call {arguments : ExprList} {cursor middle : Cursor} (found : cursor.kind = .identifier)
      (opens : cursor.step.kind = .openParen)
      (inner : Runs (.list .closeParen arguments) cursor.step.step middle)
      (closes : middle.kind = .closeParen) :
      Runs (.operand (.call { span := middle.step.spanFrom cursor.start } cursor.current.text
        arguments.span arguments.members .unresolved)) cursor middle.step
  | cast {target : ValueType} {operand : Expr} {cursor after : Cursor}
      (opens : cursor.kind = .openParen) (word : cursor.step.kind = .type)
      (named : ValueType.ofKeyword? cursor.step.current.text = some target)
      (closes : cursor.step.step.kind = .closeParen)
      (inner : Runs (.expression .unary operand) cursor.step.step.step after) :
      Runs (.operand (.cast { span := after.spanFrom cursor.start } target operand)) cursor after
  | grouped {inside : Expr} {cursor middle : Cursor} (opens : cursor.kind = .openParen)
      (inner : Runs (.expression .lowest inside) cursor.step middle)
      (closes : middle.kind = .closeParen) :
      Runs (.operand (.grouped { span := middle.step.spanFrom cursor.start } inside)) cursor
        middle.step
  | elements {elements : ExprList} {cursor middle : Cursor} (opens : cursor.kind = .openBracket)
      (inner : Runs (.list .closeBracket elements) cursor.step middle)
      (closes : middle.kind = .closeBracket) :
      Runs (.operand (.list { span := middle.step.spanFrom cursor.start } elements.span
        elements.members)) cursor middle.step
  | vector {x y z : Expr} {cursor first second third : Cursor} (opens : cursor.kind = .less)
      (one : Runs (.expression .lowest x) cursor.step first) (comma : first.kind = .comma)
      (two : Runs (.expression .lowest y) first.step second) (again : second.kind = .comma)
      (three : Runs (.expression .relational z) second.step third)
      (closes : third.kind = .greater) :
      Runs (.operand (.vector { span := third.step.spanFrom cursor.start } x y z)) cursor third.step
  | rotation {x y z s : Expr} {cursor first second third fourth : Cursor}
      (opens : cursor.kind = .less)
      (one : Runs (.expression .lowest x) cursor.step first) (comma : first.kind = .comma)
      (two : Runs (.expression .lowest y) first.step second) (again : second.kind = .comma)
      (three : Runs (.expression .relational z) second.step third) (more : third.kind = .comma)
      (four : Runs (.expression .relational s) third.step fourth)
      (closes : fourth.kind = .greater) :
      Runs (.operand (.rotation { span := fourth.step.spanFrom cursor.start } x y z s)) cursor
        fourth.step
  | prefixed {operator : PrefixOperator} {operand : Expr} {cursor after : Cursor}
      (found : cursor.kind.prefixOperator? = some operator)
      (inner : Runs (.expression .unary operand) cursor.step after) :
      Runs (.operand (.prefixed { span := cursor.current.span.merge operand.span } operator operand))
        cursor after
  | nothing {terminator : TokenKind} {cursor : Cursor} (ends : cursor.kind = terminator) :
      Runs (.list terminator ⟨.point cursor.start, []⟩) cursor cursor
  | listed {terminator : TokenKind} {exprs : List Expr} {cursor after : Cursor}
      (goes : cursor.kind ≠ terminator) (inner : Runs (.members exprs) cursor after) :
      Runs (.list terminator ⟨after.spanFrom cursor.start, exprs⟩) cursor after
  | last {expr : Expr} {cursor after : Cursor} (inner : Runs (.expression .lowest expr) cursor after) :
      Runs (.members [expr]) cursor after
  | more {expr : Expr} {exprs : List Expr} {cursor middle after : Cursor}
      (inner : Runs (.expression .lowest expr) cursor middle) (comma : middle.kind = .comma)
      (rest : Runs (.members exprs) middle.step after) :
      Runs (.members (expr :: exprs)) cursor after
  | condition {value : Expr} {cursor middle : Cursor} (opens : cursor.kind = .openParen)
      (inner : Runs (.expression .lowest value) cursor.step middle)
      (closes : middle.kind = .closeParen) : Runs (.condition value) cursor middle.step
  | noList {terminator : TokenKind} {cursor : Cursor} (ends : cursor.kind = terminator) :
      Runs (.optionalList terminator none) cursor cursor
  | someList {terminator : TokenKind} {list : ExprList} {cursor after : Cursor}
      (goes : cursor.kind ≠ terminator) (inner : Runs (.list terminator list) cursor after) :
      Runs (.optionalList terminator (some list)) cursor after
  | noValue {cursor : Cursor} (ends : cursor.kind = .semicolon) :
      Runs (.optionalExpression none) cursor cursor
  | someValue {value : Expr} {cursor after : Cursor} (goes : cursor.kind ≠ .semicolon)
      (inner : Runs (.expression .lowest value) cursor after) :
      Runs (.optionalExpression (some value)) cursor after
  | loopClauses {init afterthought : Option ExprList} {value : Option Expr}
      {cursor first second third : Cursor} (opens : cursor.kind = .openParen)
      (one : Runs (.optionalList .semicolon init) cursor.step first)
      (ends : first.kind = .semicolon) (two : Runs (.optionalExpression value) first.step second)
      (again : second.kind = .semicolon)
      (three : Runs (.optionalList .closeParen afterthought) second.step third)
      (closes : third.kind = .closeParen) :
      Runs (.loopClauses init value afterthought) cursor third.step
  | unset {type : ValueType} {cursor : Cursor} (word : cursor.kind = .type)
      (named : ValueType.ofKeyword? cursor.current.text = some type)
      (name : cursor.step.kind = .identifier) (ends : cursor.step.step.kind = .semicolon) :
      Runs (.declaration (cursor.step.step.step.spanFrom cursor.start)
        ⟨type, cursor.step.current.text, none⟩) cursor cursor.step.step.step
  | set {type : ValueType} {value : Expr} {cursor middle : Cursor} (word : cursor.kind = .type)
      (named : ValueType.ofKeyword? cursor.current.text = some type)
      (name : cursor.step.kind = .identifier) (sets : cursor.step.step.kind = .assign)
      (inner : Runs (.expression .lowest value) cursor.step.step.step middle)
      (ends : middle.kind = .semicolon) :
      Runs (.declaration (middle.step.spanFrom cursor.start)
        ⟨type, cursor.step.current.text, some value⟩) cursor middle.step
  | declare {span : Span} {decl : Variable} {cursor after : Cursor}
      (inner : Runs (.declaration span decl) cursor after) :
      Runs (.statement (.declare { span } decl)) cursor after
  | giveBack {value : Option Expr} {cursor middle : Cursor} (word : cursor.kind = .returnWord)
      (inner : Runs (.optionalExpression value) cursor.step middle)
      (ends : middle.kind = .semicolon) :
      Runs (.statement (.giveBack { span := middle.step.spanFrom cursor.start } value)) cursor
        middle.step
  | jump {cursor : Cursor} (word : cursor.kind = .jumpWord) (name : cursor.step.kind = .identifier)
      (ends : cursor.step.step.kind = .semicolon) :
      Runs (.statement (.jump { span := cursor.step.step.step.spanFrom cursor.start }
        cursor.step.current.text none)) cursor cursor.step.step.step
  | label {cursor : Cursor} (sign : cursor.kind = .atSign) (name : cursor.step.kind = .identifier)
      (ends : cursor.step.step.kind = .semicolon) :
      Runs (.statement (.label { span := cursor.step.step.step.spanFrom cursor.start }
        cursor.step.current.text)) cursor cursor.step.step.step
  | changeState {cursor : Cursor} (word : cursor.kind = .stateWord)
      (name : cursor.step.kind = .defaultWord ∨ cursor.step.kind = .identifier)
      (ends : cursor.step.step.kind = .semicolon) :
      Runs (.statement (.changeState { span := cursor.step.step.step.spanFrom cursor.start }
        cursor.step.current.text none)) cursor cursor.step.step.step
  | empty {cursor : Cursor} (ends : cursor.kind = .semicolon) :
      Runs (.statement (.empty { span := cursor.current.span })) cursor cursor.step
  | perform {value : Expr} {cursor middle : Cursor}
      (inner : Runs (.expression .lowest value) cursor middle) (ends : middle.kind = .semicolon) :
      Runs (.statement (.perform { span := middle.step.spanFrom value.span.start } value)) cursor
        middle.step

namespace Cursor

/-- Reading a phrase from the cursor fails with an error at another cursor. A token is missed, or one
is stepped over that names nothing, or an assignment stands behind what cannot be assigned to. -/
inductive Faults (cursor : Cursor) : SyntaxError → Cursor → Prop
  | missed {place : Cursor} {expecting : String} (passed : cursor.Passes place)
      (listed : expecting ∈ expectations)
      (other : expecting = Parser.afterExpression → place.kind.isAssignment = false) :
      Faults cursor (place.mismatch expecting) place
  | unnamed {place : Cursor} {expecting : String} (passed : cursor.Passes place)
      (plain : place.kind.Plain) (listed : expecting ∈ expectations)
      (other : expecting ≠ Parser.afterExpression) :
      Faults cursor (.mismatched place.current expecting) place.step
  | refused {origin place : Cursor} {power : Power} {left : Expr} (passed : cursor.Passes origin)
      (runs : Phrase.Runs (.chain power left) origin place) (fixed : left.isAssignable = false)
      (assigns : place.kind.isAssignment = true) :
      Faults cursor (place.mismatch Parser.afterExpression) place

theorem Reaches.closed {cursor after : Cursor} (reaches : cursor.Reaches after)
    (closed : cursor.close.kind = .endOfFile) : after.close.kind = .endOfFile :=
  reaches.close ▸ closed

namespace Passes

variable {cursor middle after : Cursor}

theorem trans (front : cursor.Passes middle) (back : middle.Passes after) : cursor.Passes after := by
  induction front with
  | here => exact back
  | token plain _ induction => exact .token plain (induction back)

theorem step (passed : cursor.Passes middle) (plain : middle.kind.Plain) :
    cursor.Passes middle.step :=
  passed.trans (.token plain (.here _))

theorem reaches (passed : cursor.Passes after) : cursor.Reaches after := by
  induction passed with
  | here => exact .refl _
  | token _ _ induction => exact (reaches_step _).trans induction

theorem closed (passed : cursor.Passes after) (closed : cursor.close.kind = .endOfFile) :
    after.close.kind = .endOfFile :=
  passed.reaches.closed closed

theorem length_le (passed : cursor.Passes after) : after.ahead.length ≤ cursor.ahead.length :=
  passed.reaches.ahead.length_le

end Passes

namespace Advances

variable {cursor middle after : Cursor}

theorem single (plain : cursor.kind.Plain) : cursor.Advances cursor.step := ⟨plain, .here _⟩

theorem passes (advances : cursor.Advances after) : cursor.Passes after :=
  .token advances.1 advances.2

theorem trans (front : cursor.Advances middle) (back : middle.Passes after) :
    cursor.Advances after :=
  ⟨front.1, front.2.trans back⟩

end Advances

theorem length_step_lt {cursor : Cursor} (closed : cursor.close.kind = .endOfFile)
    (goes : cursor.kind ≠ .endOfFile) : cursor.step.ahead.length < cursor.ahead.length := by
  cases ahead : cursor.ahead with
  | nil => exact absurd (by simpa [kind, current, ahead] using closed) goes
  | cons token rest => simp [step, ahead]

theorem Advances.length_lt {cursor after : Cursor} (closed : cursor.close.kind = .endOfFile)
    (advances : cursor.Advances after) : after.ahead.length < cursor.ahead.length :=
  Nat.lt_of_le_of_lt advances.2.length_le (length_step_lt closed advances.1.2.2)

theorem Faults.later {cursor middle after : Cursor} {error : SyntaxError}
    (faults : middle.Faults error after) (passed : cursor.Passes middle) :
    cursor.Faults error after := by
  cases faults with
  | missed further listed other => exact .missed (passed.trans further) listed other
  | unnamed further plain listed other => exact .unnamed (passed.trans further) plain listed other
  | refused further runs fixed assigns => exact .refused (passed.trans further) runs fixed assigns

theorem Passes.faults {cursor middle : Cursor} (passed : cursor.Passes middle) :
    ∀ error after, middle.Faults error after → cursor.Faults error after :=
  fun _ _ faults => faults.later passed

theorem Faults.written {cursor place : Cursor} (passed : cursor.Passes place)
    (plain : place.kind.Plain) {expecting tail : String} (listed : expecting ∈ expectations)
    (other : expecting ≠ Parser.afterExpression) (same : "' expecting " ++ expecting = tail) :
    cursor.Faults ⟨.grammar, place.current.text, "mismatched input '" ++ place.current.text ++ tail,
      place.current.span⟩ place.step := by
  have told : SyntaxError.mismatched place.current expecting =
      ⟨.grammar, place.current.text, "mismatched input '" ++ place.current.text ++ tail,
        place.current.span⟩ := by
    simp only [SyntaxError.mismatched, ← same, String.append_assoc]
  rw [← told]
  exact .unnamed passed plain listed other

end Cursor

theorem Token.plain_of_literal {token : Token} {expr : Expr} (known : token.literal? = some expr) :
    token.kind.Plain := by
  unfold literal? at known
  split at known
  case h_5 => cases known
  all_goals
    rename_i found
    rw [found]
    decide

/-- What a phrase steps over. What may be left out may be empty. -/
def Phrase.Moves (phrase : Phrase) (cursor after : Cursor) : Prop :=
  match phrase with
  | list _ _ | optionalList _ _ | optionalExpression _ => cursor.Passes after
  | _ => cursor.Advances after

theorem Phrase.Runs.moves {phrase : Phrase} {cursor after : Cursor} (runs : phrase.Runs cursor after) :
    phrase.Moves cursor after := by
  have plain {place : Cursor} {kind : TokenKind} (found : place.kind = kind)
      (fine : kind.Plain) : place.kind.Plain := found ▸ fine
  induction runs with
  | expression _ _ chain => exact chain
  | first _ operand => exact operand
  | step operator _ found _ chain =>
      exact chain.trans (.step (.here _) (plain found (by cases operator <;> decide)))
  | component _ dot _ name _ chain =>
      exact chain.trans (.step (.step (.here _) (plain dot (by decide))) (plain name (by decide)))
  | binary _ _ found _ _ chain right =>
      exact chain.trans (.token (TokenKind.plain_of_binary found) right.passes)
  | literal known => exact .single (Token.plain_of_literal known)
  | reference found => exact .single (plain found (by decide))
  | call found opens _ closes inner =>
      refine ⟨plain found (by decide), .token (plain opens (by decide)) ?_⟩
      exact Cursor.Passes.step inner (plain closes (by decide))
  | cast opens word _ closes _ inner =>
      refine ⟨plain opens (by decide), .token (plain word (by decide)) ?_⟩
      exact .token (plain closes (by decide)) inner.passes
  | grouped opens _ closes inner =>
      exact ⟨plain opens (by decide), inner.passes.step (plain closes (by decide))⟩
  | elements opens _ closes inner =>
      exact ⟨plain opens (by decide), Cursor.Passes.step inner (plain closes (by decide))⟩
  | vector opens _ comma _ again _ closes one two three =>
      refine ⟨plain opens (by decide), .step (.trans one.passes ?_) (plain closes (by decide))⟩
      refine .token (plain comma (by decide)) (two.passes.trans ?_)
      exact .token (plain again (by decide)) three.passes
  | rotation opens _ comma _ again _ more _ closes one two three four =>
      refine ⟨plain opens (by decide), .step (.trans one.passes ?_) (plain closes (by decide))⟩
      refine .token (plain comma (by decide)) (two.passes.trans ?_)
      refine .token (plain again (by decide)) (three.passes.trans ?_)
      exact .token (plain more (by decide)) four.passes
  | prefixed found _ inner => exact ⟨TokenKind.plain_of_prefixed found, inner.passes⟩
  | nothing | noList | noValue => exact .here _
  | listed _ _ inner => exact inner.passes
  | last _ inner => exact inner
  | more _ comma _ inner rest => exact inner.trans (.token (plain comma (by decide)) rest.passes)
  | condition opens _ closes inner =>
      exact ⟨plain opens (by decide), inner.passes.step (plain closes (by decide))⟩
  | someList _ _ inner => exact inner
  | someValue _ _ inner => exact inner.passes
  | loopClauses opens _ ends _ again _ closes one two three =>
      refine ⟨plain opens (by decide), .step (.trans one ?_) (plain closes (by decide))⟩
      refine .token (plain ends (by decide)) (two.trans ?_)
      exact .token (plain again (by decide)) three
  | unset word _ name ends | jump word name ends | label word name ends =>
      refine ⟨plain word (by decide), .token (plain name (by decide)) ?_⟩
      exact .token (plain ends (by decide)) (.here _)
  | set word _ name sets _ ends inner =>
      refine ⟨plain word (by decide), .token (plain name (by decide)) ?_⟩
      exact .token (plain sets (by decide)) (inner.passes.step (plain ends (by decide)))
  | declare _ inner => exact inner
  | giveBack word _ ends inner =>
      exact ⟨plain word (by decide), Cursor.Passes.step inner (plain ends (by decide))⟩
  | changeState word name ends =>
      refine ⟨plain word (by decide), .token ?_ (.token (plain ends (by decide)) (.here _))⟩
      rcases name with word | name
      · exact plain word (by decide)
      · exact plain name (by decide)
  | empty ends => exact .single (plain ends (by decide))
  | perform _ ends inner => exact inner.trans (.token (plain ends (by decide)) (.here _))

/-- Where a run ends, the same token closes the script, and no more tokens are ahead. -/
theorem Phrase.Runs.passes {phrase : Phrase} {cursor after : Cursor}
    (runs : phrase.Runs cursor after) : cursor.Passes after := by
  have moves := runs.moves
  cases phrase with
  | list | optionalList | optionalExpression => exact moves
  | _ => exact Cursor.Advances.passes moves

theorem Phrase.Runs.alone {stmt : Stmt} {cursor after : Cursor}
    (runs : (Phrase.statement stmt).Runs cursor after) :
    stmt.parts = [] ∧ stmt.isFaulty = false ∧ stmt.reach = .live := by
  cases runs <;> exact ⟨rfl, rfl, rfl⟩

end Lsl
