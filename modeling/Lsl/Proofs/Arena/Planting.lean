import Lsl.Parsing.Script
import Lsl.Proofs.Arena.Links

/-!
Reading a script into an arena. Tokens are read as for the script itself, and a node is added as soon
as what it stands for is read, behind the nodes inside of it. What was added for a text that cannot
be read in the end stays in the arena without a parent.
-/

set_option autoImplicit false

namespace Lsl

/-- A node that was added, with its number. -/
structure Root where
  id : Nat
  node : Node

/-- What was read, with the nodes of it that have no parent yet, in their order. -/
structure Planted (α : Type) where
  value : α
  roots : List Root := []

/-- Where reading goes on, and what was added so far. -/
structure Site where
  cursor : Cursor
  arena : Arena := {}

/-- A reader that adds nodes. What was added stays, also if the reader fails. -/
abbrev Planter := EStateM SyntaxError Site

namespace Planter

/-- Reads without adding anything. -/
def read {α : Type} (reader : Parser α) : Planter α := fun site =>
  match reader site.cursor with
  | .ok value after => .ok value { site with cursor := after }
  | .error error after => .error error { site with cursor := after }

/-- Adds the node of a value around the nodes inside. -/
def grow {α : Type} (node : α → Node) (value : α) (inside : List Root) : Planter (Planted α) :=
  fun site =>
    .ok ⟨value, [⟨site.arena.size, node value⟩]⟩
      { site with arena := site.arena.add (node value) (inside.map Root.id) }

/-- Adds the node of something that could not be read. -/
def growError {α : Type} (node : α → Node) (value : α) : Planter (Planted α) := fun site =>
  .ok ⟨value, [⟨site.arena.size, node value⟩]⟩
    { site with arena := site.arena.addError (node value) }

/-- Goes on from where the planter failed. -/
def recovering {α : Type} (planter : Planter α) (handle : SyntaxError → Planter α) : Planter α :=
  fun site =>
    match planter site with
    | .ok value later => .ok value later
    | .error error later => handle error later

section Expressions

def stepBehind (left : Planted Expr) (operator : PostfixOperator) : Planter (Planted Expr) := do
  let value ← read (Parser.stepBehind left.value operator)
  grow .expr value left.roots

def memberBehind (left : Planted Expr) : Planter (Planted Expr) := do
  let value ← read (Parser.memberBehind left.value)
  grow .expr value left.roots

mutual

def expressionWithin : Nat → Power → Planter (Planted Expr)
  | 0, _ => read (Parser.mismatched Parser.expressionStart)
  | fuel + 1, power => do
    let left ← operandWithin fuel
    extendWithin fuel power left

def extendWithin : Nat → Power → Planted Expr → Planter (Planted Expr)
  | 0, _, _ => read (Parser.mismatched Parser.afterExpression)
  | fuel + 1, power, left => do
    let cursor ← read Parser.peek
    if cursor.kind.power.rank ≤ power.rank then return left
    else
      match cursor.kind with
      | .plusPlus => extendWithin fuel power (← stepBehind left .increment)
      | .minusMinus => extendWithin fuel power (← stepBehind left .decrement)
      | .dot => extendWithin fuel power (← memberBehind left)
      | kind =>
        match kind.binaryOperator? with
        | none => return left
        | some operator =>
          if operator.isAssignment && !left.value.isAssignable then
            read (Parser.mismatched Parser.afterExpression)
          else
            let _ ← read Parser.next
            let right ← expressionWithin fuel
              (if operator.isAssignment then .lowest else operator.power)
            let joined ← grow .expr
              (.binary { span := left.value.span.merge right.value.span } operator left.value
                right.value)
              (left.roots ++ right.roots)
            extendWithin fuel power joined

def operandWithin : Nat → Planter (Planted Expr)
  | 0 => read (Parser.mismatched Parser.expressionStart)
  | fuel + 1 => do
    let token := (← read Parser.peek).current
    match token.kind with
    | .integer =>
      let _ ← read Parser.next
      grow .expr (.integer { span := token.span } token.text) []
    | .hex =>
      let _ ← read Parser.next
      grow .expr (.hex { span := token.span } token.text) []
    | .float =>
      let _ ← read Parser.next
      grow .expr (.float { span := token.span } token.text) []
    | .string =>
      let _ ← read Parser.next
      grow .expr (.string { span := token.span } token.text) []
    | .identifier =>
      let _ ← read Parser.next
      if ← read (Parser.accept .openParen) then
        let arguments ← listWithin fuel .arguments .closeParen
        let _ ← read (Parser.expect .closeParen)
        let span ← read (Parser.spanFrom token.span.start)
        grow .expr
          (.call { span } token.text arguments.value.span arguments.value.members .unresolved)
          arguments.roots
      else grow .expr (.reference { span := token.span } token.text .unresolved) []
    | .openParen =>
      let _ ← read Parser.next
      if (← read Parser.peek).kind = .type then
        let target ← read Parser.type
        let _ ← read (Parser.expect .closeParen)
        let operand ← expressionWithin fuel .unary
        let span ← read (Parser.spanFrom token.span.start)
        grow .expr (.cast { span } target operand.value) operand.roots
      else
        let inner ← expressionWithin fuel .lowest
        let _ ← read (Parser.expect .closeParen)
        let span ← read (Parser.spanFrom token.span.start)
        grow .expr (.grouped { span } inner.value) inner.roots
    | .openBracket =>
      let _ ← read Parser.next
      let elements ← listWithin fuel .elements .closeBracket
      let _ ← read (Parser.expect .closeBracket)
      let span ← read (Parser.spanFrom token.span.start)
      grow .expr (.list { span } elements.value.span elements.value.members) elements.roots
    | .less =>
      let _ ← read Parser.next
      let x ← expressionWithin fuel .lowest
      let _ ← read (Parser.expect .comma)
      let y ← expressionWithin fuel .lowest
      let _ ← read (Parser.expect .comma)
      let z ← expressionWithin fuel .relational
      if ← read (Parser.accept .greater) then
        let span ← read (Parser.spanFrom token.span.start)
        grow .expr (.vector { span } x.value y.value z.value) (x.roots ++ y.roots ++ z.roots)
      else if ← read (Parser.accept .comma) then
        let s ← expressionWithin fuel .relational
        let _ ← read (Parser.expect .greater)
        let span ← read (Parser.spanFrom token.span.start)
        grow .expr (.rotation { span } x.value y.value z.value s.value)
          (x.roots ++ y.roots ++ z.roots ++ s.roots)
      else read (Parser.mismatched "\x7b',', '>'\x7d")
    | kind =>
      match kind.prefixOperator? with
      | some operator =>
        let _ ← read Parser.next
        let operand ← expressionWithin fuel .unary
        grow .expr
          (.prefixed { span := token.span.merge operand.value.span } operator operand.value)
          operand.roots
      | none => read (Parser.mismatched Parser.expressionStart)

def listWithin : Nat → ListRole → TokenKind → Planter (Planted ExprList)
  | 0, _, _ => read (Parser.mismatched Parser.expressionStart)
  | fuel + 1, role, terminator => do
    let cursor ← read Parser.peek
    if cursor.kind = terminator then grow (.exprList role) ⟨.point cursor.start, []⟩ []
    else
      let members ← membersWithin fuel
      let span ← read (Parser.spanFrom cursor.start)
      grow (.exprList role) ⟨span, members.value⟩ members.roots

def membersWithin : Nat → Planter (Planted (List Expr))
  | 0 => read (Parser.mismatched Parser.expressionStart)
  | fuel + 1 => do
    let first ← expressionWithin fuel .lowest
    if ← read (Parser.accept .comma) then
      let rest ← membersWithin fuel
      return ⟨first.value :: rest.value, first.roots ++ rest.roots⟩
    else return ⟨[first.value], first.roots⟩

end

def expression : Planter (Planted Expr) := do
  expressionWithin (← read Parser.peek).budget .lowest

def expressionList (role : ListRole) (terminator : TokenKind) : Planter (Planted ExprList) := do
  listWithin (← read Parser.peek).budget role terminator

end Expressions

section Statements

/-- Reads a statement that holds no other nodes. -/
def leaf (reader : Parser Stmt) : Planter (Planted Stmt) := do
  let stmt ← read reader
  grow Stmt.node stmt []

def breakStatement (start : Position) (error : SyntaxError) : Planter (Planted Stmt) := do
  let stmt ← read (Parser.breakStatement start error)
  growError Stmt.node stmt

def variableDeclaration : Planter (Planted (Span × Variable)) := do
  let start := (← read Parser.peek).start
  let type ← read Parser.type
  let name := (← read (Parser.expect .identifier)).text
  if ← read (Parser.accept .assign) then
    let initializer ← expression
    let _ ← read (Parser.expect .semicolon)
    let span ← read (Parser.spanFrom start)
    return ⟨(span, ⟨type, name, some initializer.value⟩), initializer.roots⟩
  else
    let _ ← read (Parser.expectOr .semicolon "\x7b'=', ';'\x7d")
    let span ← read (Parser.spanFrom start)
    return ⟨(span, ⟨type, name, none⟩), []⟩

def condition : Planter (Planted Expr) := do
  let _ ← read (Parser.expect .openParen)
  let value ← expression
  let _ ← read (Parser.expect .closeParen)
  return value

def optionalList (role : ListRole) (terminator : TokenKind) :
    Planter (Planted (Option ExprList)) := do
  if (← read Parser.peek).kind = terminator then return ⟨none, []⟩
  else
    let list ← expressionList role terminator
    return ⟨some list.value, list.roots⟩

def optionalExpression : Planter (Planted (Option Expr)) := do
  if (← read Parser.peek).kind = .semicolon then return ⟨none, []⟩
  else
    let value ← expression
    return ⟨some value.value, value.roots⟩

def returnStatement : Planter (Planted Stmt) := do
  let start := (← read Parser.next).span.start
  let value ← optionalExpression
  let _ ← read (Parser.expect .semicolon)
  let span ← read (Parser.spanFrom start)
  grow Stmt.node (.giveBack { span } value.value) value.roots

def expressionStatement : Planter (Planted Stmt) := do
  let value ← expression
  let _ ← read (Parser.expect .semicolon)
  let span ← read (Parser.spanFrom value.value.span.start)
  grow Stmt.node (.perform { span } value.value) value.roots

def loopClauses : Planter (Planted (Option ExprList × Option Expr × Option ExprList)) := do
  let _ ← read (Parser.expect .openParen)
  let init ← optionalList .loopInit .semicolon
  let _ ← read (Parser.expect .semicolon)
  let condition ← optionalExpression
  let _ ← read (Parser.expect .semicolon)
  let afterthought ← optionalList .loopAfterthought .closeParen
  let _ ← read (Parser.expect .closeParen)
  return ⟨(init.value, condition.value, afterthought.value),
    init.roots ++ condition.roots ++ afterthought.roots⟩

/-- The node of a scope. -/
def scopeNode (result : ScopeInfo × List Stmt) : Node := .scope result.1 result.2

mutual

def statementWithin : Nat → Planter (Planted Stmt)
  | 0 => read (Parser.mismatched Parser.expressionStart)
  | fuel + 1 => do
    match (← read Parser.peek).kind with
    | .openCurly =>
      -- A block is no more than its scope, whose node stands for both.
      let inner ← scopeWithin fuel .block
      return ⟨.block inner.value.1 inner.value.2, inner.roots⟩
    | .type =>
      let decl ← variableDeclaration
      grow Stmt.node (.declare { span := decl.value.1 } decl.value.2) decl.roots
    | .ifWord =>
      let start := (← read Parser.next).span.start
      let value ← condition
      let inner ← bodyWithin fuel .ifBody
      let first ← read (Parser.spanFrom start)
      let branch ← grow (fun _ => .ifBranch first value.value inner.value.1 inner.value.2) ()
        (value.roots ++ inner.roots)
      let rest ← alternativesWithin fuel
      let span ← read (Parser.spanFrom start)
      grow Stmt.node (.branch { span } first value.value inner.value.1 inner.value.2 rest.value)
        (branch.roots ++ rest.roots)
    | .whileWord =>
      let start := (← read Parser.next).span.start
      let value ← condition
      let inner ← bodyWithin fuel .whileLoop
      let span ← read (Parser.spanFrom start)
      grow Stmt.node (.whileLoop { span } value.value inner.value.1 inner.value.2)
        (value.roots ++ inner.roots)
    | .doWord =>
      let start := (← read Parser.next).span.start
      let inner ← bodyWithin fuel .doLoop
      let _ ← read (Parser.expect .whileWord)
      let value ← condition
      let _ ← read (Parser.expect .semicolon)
      let span ← read (Parser.spanFrom start)
      grow Stmt.node (.doLoop { span } inner.value.1 inner.value.2 value.value)
        (inner.roots ++ value.roots)
    | .forWord =>
      let start := (← read Parser.next).span.start
      let clauses ← loopClauses
      let inner ← bodyWithin fuel .forLoop
      let span ← read (Parser.spanFrom start)
      grow Stmt.node
        (.forLoop { span } clauses.value.1 clauses.value.2.1 clauses.value.2.2 inner.value.1
          inner.value.2)
        (clauses.roots ++ inner.roots)
    | .returnWord => returnStatement
    | .jumpWord => leaf Parser.jumpStatement
    | .atSign => leaf Parser.labelStatement
    | .stateWord => leaf Parser.stateChangeStatement
    | .semicolon =>
      let token ← read Parser.next
      grow Stmt.node (.empty { span := token.span }) []
    | _ => expressionStatement

def scopeWithin : Nat → ScopeRole → Planter (Planted (ScopeInfo × List Stmt))
  | 0, _ => read (Parser.mismatched "'\x7b'")
  | fuel + 1, role => do
    let start := (← read (Parser.expect .openCurly)).span.start
    let id ← read Parser.freshScope
    let body ← statementsWithin fuel
    let _ ← read (Parser.expect .closeCurly)
    let span ← read (Parser.spanFrom start)
    grow scopeNode (⟨span, id, role, false, .live⟩, body.value) body.roots

def statementsWithin : Nat → Planter (Planted (List Stmt))
  | 0 => read (Parser.mismatched "'\x7d'")
  | fuel + 1 => do
    let cursor ← read Parser.peek
    if cursor.kind = .closeCurly ∨ cursor.kind = .endOfFile then return ⟨[], []⟩
    else
      let first ← recovering (statementWithin fuel) (breakStatement cursor.start)
      let rest ← statementsWithin fuel
      return ⟨first.value :: rest.value, first.roots ++ rest.roots⟩

def bodyWithin : Nat → ScopeRole → Planter (Planted (ScopeInfo × List Stmt))
  | 0, _ => read (Parser.mismatched Parser.expressionStart)
  | fuel + 1, role => do
    let token := (← read Parser.peek).current
    match token.kind with
    | .openCurly => scopeWithin fuel role
    | .type =>
      read (throw ⟨.grammar, token.text, "mismatched input '" ++ token.text ++
        "' expecting a statement, declarations need an enclosing '\x7b'", token.span⟩)
    | _ =>
      let id ← read Parser.freshScope
      let stmt ← statementWithin fuel
      grow scopeNode (⟨stmt.value.span, id, role, true, .live⟩, [stmt.value]) stmt.roots

def alternativesWithin : Nat → Planter (Planted Alternatives)
  | 0 => read (Parser.mismatched "'else'")
  | fuel + 1 => do
    let start := (← read Parser.peek).start
    if ← read (Parser.accept .elseWord) then
      if ← read (Parser.accept .ifWord) then
        let value ← condition
        let inner ← bodyWithin fuel .elseIfBody
        let span ← read (Parser.spanFrom start)
        let branch ← grow (fun _ => .elseIfBranch span value.value inner.value.1 inner.value.2) ()
          (value.roots ++ inner.roots)
        let rest ← alternativesWithin fuel
        return ⟨.elseIf span value.value inner.value.1 inner.value.2 rest.value,
          branch.roots ++ rest.roots⟩
      else
        let inner ← bodyWithin fuel .elseBody
        let span ← read (Parser.spanFrom start)
        let branch ← grow (fun _ => .elseBranch span inner.value.1 inner.value.2) () inner.roots
        return ⟨.otherwise span inner.value.1 inner.value.2, branch.roots⟩
    else return ⟨.done, []⟩

end

def scope (role : ScopeRole) : Planter (Planted (ScopeInfo × List Stmt)) := do
  scopeWithin (← read Parser.peek).budget role

end Statements

section Declarations

def parameter : Planter (Planted ParameterDecl) := do
  let decl ← read Parser.parameter
  grow .parameter decl []

def parametersWithin : Nat → Planter (Planted (List ParameterDecl))
  | 0 => read (Parser.mismatched "TYPE")
  | fuel + 1 => do
    let first ← parameter
    if ← read (Parser.accept .comma) then
      let rest ← parametersWithin fuel
      return ⟨first.value :: rest.value, first.roots ++ rest.roots⟩
    else return ⟨[first.value], first.roots⟩

def parameterList : Planter (Planted ParameterList) := do
  let start := (← read (Parser.expect .openParen)).span.start
  let cursor ← read Parser.peek
  let members ← if cursor.kind = .closeParen then pure ⟨[], []⟩ else parametersWithin cursor.budget
  let _ ← read (Parser.expectOr .closeParen "\x7b',', ')'\x7d")
  let span ← read (Parser.spanFrom start)
  grow .parameters ⟨span, members.value⟩ members.roots

def functionDecl : Planter (Planted FunctionDecl) := do
  let cursor ← read Parser.peek
  let returns ← read (if cursor.kind = .type then Parser.type else pure .void)
  let name := (← read (Parser.expect .identifier)).text
  let parameters ← parameterList
  let inner ← scope .function
  let span ← read (Parser.spanFrom cursor.start)
  grow .function
    { span, name, returns, parameters := parameters.value
      scope := inner.value.1, body := inner.value.2 }
    (parameters.roots ++ inner.roots)

def handlerDecl : Planter (Planted StateMember) := do
  let start := (← read Parser.peek).start
  let name := (← read (Parser.expect .identifier)).text
  let parameters ← parameterList
  let inner ← scope .handler
  let span ← read (Parser.spanFrom start)
  grow StateMember.node
    (.handler { span, name, parameters := parameters.value
                scope := inner.value.1, body := inner.value.2 })
    (parameters.roots ++ inner.roots)

def breakHandler (start : Position) (error : SyntaxError) : Planter (Planted StateMember) := do
  let member ← read (Parser.breakHandler start error)
  growError StateMember.node member

def stateMembersWithin : Nat → Planter (Planted (List StateMember))
  | 0 => read (Parser.mismatched "'\x7d'")
  | fuel + 1 => do
    let cursor ← read Parser.peek
    if cursor.kind = .closeCurly ∨ cursor.kind = .endOfFile then return ⟨[], []⟩
    else
      let first ← recovering handlerDecl (breakHandler cursor.start)
      let rest ← stateMembersWithin fuel
      return ⟨first.value :: rest.value, first.roots ++ rest.roots⟩

def stateDecl : Planter (Planted StateDecl) := do
  let start := (← read Parser.peek).start
  let (name, isDefault) ← read Parser.stateHead
  let _ ← read (Parser.expect .openCurly)
  let members ← stateMembersWithin (← read Parser.peek).budget
  let _ ← read (Parser.expect .closeCurly)
  let span ← read (Parser.spanFrom start)
  grow .state { span, name, isDefault, members := members.value } members.roots

def globalDecl : Planter (Planted GlobalDecl) := do
  let decl ← variableDeclaration
  grow .global { span := decl.value.1, decl := decl.value.2 } decl.roots

/-- A script that was read up to some point, with the nodes of its declarations. -/
structure Sapling where
  script : Script
  globals : List Root := []
  functions : List Root := []
  defaultState : List Root := []
  states : List Root := []
  broken : List Root := []

/-- The nodes in the order in which the script keeps them. -/
def Sapling.roots (sapling : Sapling) : List Root :=
  sapling.globals ++ sapling.functions ++ sapling.defaultState ++ sapling.states ++ sapling.broken

namespace Sapling

def addGlobal (sapling : Sapling) (decl : Planted GlobalDecl) : Sapling :=
  { sapling with
    script := { sapling.script with globals := sapling.script.globals ++ [decl.value] }
    globals := sapling.globals ++ decl.roots }

def addFunction (sapling : Sapling) (decl : Planted FunctionDecl) : Sapling :=
  { sapling with
    script := { sapling.script with functions := sapling.script.functions ++ [decl.value] }
    functions := sapling.functions ++ decl.roots }

def addDefault (sapling : Sapling) (decl : Planted StateDecl) : Sapling :=
  { sapling with
    script := { sapling.script with defaultState := some decl.value }
    defaultState := decl.roots }

def addState (sapling : Sapling) (decl : Planted StateDecl) : Sapling :=
  { sapling with
    script := { sapling.script with states := sapling.script.states ++ [decl.value] }
    states := sapling.states ++ decl.roots }

def addBroken (sapling : Sapling) (part : Planted BrokenPart) : Sapling :=
  { sapling with
    script := { sapling.script with broken := sapling.script.broken ++ [part.value] }
    broken := sapling.broken ++ part.roots }

end Sapling

def declaration (sapling : Sapling) : Planter Sapling := do
  let cursor ← read Parser.peek
  match cursor.kind, sapling.script.defaultState.isSome with
  | .stateWord, true => return sapling.addState (← stateDecl)
  | _, true => read (Parser.mismatched Parser.stateStart)
  | .stateWord, false =>
    read (Parser.report (cursor.mismatch Parser.topLevelStart))
    return sapling.addState (← stateDecl)
  | .defaultWord, false => return sapling.addDefault (← stateDecl)
  | .type, false =>
    if Parser.atFunctionHeader cursor then return sapling.addFunction (← functionDecl)
    else return sapling.addGlobal (← globalDecl)
  | .identifier, false =>
    if Parser.atFunctionHeader cursor then return sapling.addFunction (← functionDecl)
    else read (Parser.mismatched Parser.topLevelStart)
  | _, false => read (Parser.mismatched Parser.topLevelStart)

def breakDeclaration (sapling : Sapling) (start : Position) (error : SyntaxError) :
    Planter Sapling := do
  read (Parser.report error)
  read Parser.skipTopLevel
  let context : BrokenContext :=
    if sapling.script.defaultState.isSome then .state else .globalDeclaration
  let cursor ← read Parser.peek
  let part ← growError BrokenPart.node ⟨cursor.brokenSpan start, context⟩
  return sapling.addBroken part

def declarationsWithin : Nat → Sapling → Planter Sapling
  | 0, sapling => return sapling
  | fuel + 1, sapling => do
    let cursor ← read Parser.peek
    if cursor.kind = .endOfFile then return sapling
    else
      let extended ← recovering (declaration sapling) (breakDeclaration sapling cursor.start)
      declarationsWithin fuel extended

def script : Planter (Planted Script) := do
  let cursor ← read Parser.peek
  let found ← declarationsWithin cursor.budget { script := { span := .point cursor.start } }
  let span ← read (Parser.spanFrom cursor.start)
  grow .script { found.script with span } found.roots

end Declarations

end Planter

/-- A script that was read into an arena, by the number of its root, and the errors found in it. -/
structure Plantation where
  arena : Arena
  root : Option Nat
  errors : List SyntaxError

/-- The arena of a token list. -/
def plant (tokens : List Token) : Plantation :=
  match Planter.script { cursor := .ofTokens tokens } with
  | .ok planted site => ⟨site.arena, planted.roots.head?.map Root.id, site.cursor.errors⟩
  | .error error site => ⟨site.arena, none, site.cursor.errors ++ [error]⟩

end Lsl
