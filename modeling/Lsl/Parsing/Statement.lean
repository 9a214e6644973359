import Lsl.Parsing.Expression

/-!
Reading statements. A statement that cannot be read is reported and skipped, and its place in the
tree is taken by a broken statement; reading goes on behind it.
-/

set_option autoImplicit false

namespace Lsl

namespace Parser

/-- The tokens to skip behind a broken statement: past the next semicolon, past a block in braces
unless `else` follows it, or up to the brace that closes the scope around it. -/
def statementSkip (depth : Nat) : List Token → Nat
  | [] => 0
  | token :: rest =>
    match token.kind with
    | .semicolon => if depth = 0 then 1 else 1 + statementSkip depth rest
    | .openCurly => 1 + statementSkip (depth + 1) rest
    | .closeCurly =>
      if depth = 0 then 0
      else if depth = 1 then
        if rest.head?.any (·.kind == .elseWord) then 1 + statementSkip 0 rest else 1
      else 1 + statementSkip (depth - 1) rest
    | _ => 1 + statementSkip depth rest

def skipStatement : Parser Unit :=
  modify fun cursor => cursor.skip (statementSkip 0 cursor.ahead)

/-- Reports an error and leaves a broken statement for the text skipped. -/
def breakStatement (start : Position) (error : SyntaxError) : Parser Stmt := do
  report error
  skipStatement
  return .broken ((← peek).brokenSpan start)

def variableDeclaration : Parser (Span × Variable) := do
  let start := (← peek).start
  let type ← type
  let name := (← expect .identifier).text
  if ← accept .assign then
    let initializer ← expression
    let _ ← expect .semicolon
    return (← spanFrom start, ⟨type, name, some initializer⟩)
  else
    let _ ← expectOr .semicolon "\x7b'=', ';'\x7d"
    return (← spanFrom start, ⟨type, name, none⟩)

def condition : Parser Expr := do
  let _ ← expect .openParen
  let value ← expression
  let _ ← expect .closeParen
  return value

/-- A list of expressions that may be left out. -/
def optionalList (terminator : TokenKind) : Parser (Option ExprList) := do
  if (← peek).kind = terminator then return none
  else return some (← expressionList terminator)

/-- An expression that may be left out before a semicolon. -/
def optionalExpression : Parser (Option Expr) := do
  if (← peek).kind = .semicolon then return none else return some (← expression)

def returnStatement : Parser Stmt := do
  let start := (← next).span.start
  let value ← optionalExpression
  let _ ← expect .semicolon
  return .giveBack { span := ← spanFrom start } value

def jumpStatement : Parser Stmt := do
  let start := (← next).span.start
  let label := (← expect .identifier).text
  let _ ← expect .semicolon
  return .jump { span := ← spanFrom start } label none

def labelStatement : Parser Stmt := do
  let start := (← next).span.start
  let name := (← expect .identifier).text
  let _ ← expect .semicolon
  return .label { span := ← spanFrom start } name

def stateName : Parser String := do
  let cursor ← peek
  if cursor.kind = .defaultWord ∨ cursor.kind = .identifier then return (← next).text
  else mismatched "\x7b'default', ID\x7d"

def stateChangeStatement : Parser Stmt := do
  let start := (← next).span.start
  let state ← stateName
  let _ ← expect .semicolon
  return .changeState { span := ← spanFrom start } state none

def expressionStatement : Parser Stmt := do
  let value ← expression
  let _ ← expect .semicolon
  return .perform { span := ← spanFrom value.span.start } value

/-- The three parts of a `for` loop between its parentheses. -/
def loopClauses : Parser (Option ExprList × Option Expr × Option ExprList) := do
  let _ ← expect .openParen
  let init ← optionalList .semicolon
  let _ ← expect .semicolon
  let condition ← optionalExpression
  let _ ← expect .semicolon
  let afterthought ← optionalList .closeParen
  let _ ← expect .closeParen
  return (init, condition, afterthought)

mutual

def statementWithin : Nat → Parser Stmt
  | 0 => mismatched expressionStart
  | fuel + 1 => do
    match (← peek).kind with
    | .openCurly =>
      let (scope, body) ← scopeWithin fuel .block
      return .block scope body
    | .type =>
      let (span, decl) ← variableDeclaration
      return .declare { span } decl
    | .ifWord =>
      let start := (← next).span.start
      let value ← condition
      let (scope, body) ← bodyWithin fuel .ifBody
      let first ← spanFrom start
      let rest ← alternativesWithin fuel
      return .branch { span := ← spanFrom start } first value scope body rest
    | .whileWord =>
      let start := (← next).span.start
      let value ← condition
      let (scope, body) ← bodyWithin fuel .whileLoop
      return .whileLoop { span := ← spanFrom start } value scope body
    | .doWord =>
      let start := (← next).span.start
      let (scope, body) ← bodyWithin fuel .doLoop
      let _ ← expect .whileWord
      let value ← condition
      let _ ← expect .semicolon
      return .doLoop { span := ← spanFrom start } scope body value
    | .forWord =>
      let start := (← next).span.start
      let (init, value, afterthought) ← loopClauses
      let (scope, body) ← bodyWithin fuel .forLoop
      return .forLoop { span := ← spanFrom start } init value afterthought scope body
    | .returnWord => returnStatement
    | .jumpWord => jumpStatement
    | .atSign => labelStatement
    | .stateWord => stateChangeStatement
    | .semicolon => return .empty { span := (← next).span }
    | _ => expressionStatement

def scopeWithin : Nat → ScopeRole → Parser (ScopeInfo × List Stmt)
  | 0, _ => mismatched "'\x7b'"
  | fuel + 1, role => do
    let start := (← expect .openCurly).span.start
    let id ← freshScope
    let body ← statementsWithin fuel
    let _ ← expect .closeCurly
    return (⟨← spanFrom start, id, role, false, .live⟩, body)

/-- Statements up to a closing brace or the end of the script. -/
def statementsWithin : Nat → Parser (List Stmt)
  | 0 => mismatched "'\x7d'"
  | fuel + 1 => do
    let cursor ← peek
    if cursor.kind = .closeCurly ∨ cursor.kind = .endOfFile then return []
    else
      let first ← recovering (statementWithin fuel) (breakStatement cursor.start)
      return first :: (← statementsWithin fuel)

/-- The body of a branch or loop. A body without braces is a scope of one statement, which is no
declaration. -/
def bodyWithin : Nat → ScopeRole → Parser (ScopeInfo × List Stmt)
  | 0, _ => mismatched expressionStart
  | fuel + 1, role => do
    let token := (← peek).current
    match token.kind with
    | .openCurly => scopeWithin fuel role
    | .type =>
      throw ⟨.grammar, token.text, "mismatched input '" ++ token.text ++
        "' expecting a statement, declarations need an enclosing '\x7b'", token.span⟩
    | _ =>
      let id ← freshScope
      let stmt ← statementWithin fuel
      return (⟨stmt.span, id, role, true, .live⟩, [stmt])

def alternativesWithin : Nat → Parser Alternatives
  | 0 => mismatched "'else'"
  | fuel + 1 => do
    let start := (← peek).start
    if ← accept .elseWord then
      if ← accept .ifWord then
        let value ← condition
        let (scope, body) ← bodyWithin fuel .elseIfBody
        let span ← spanFrom start
        let rest ← alternativesWithin fuel
        return .elseIf span value scope body rest
      else
        let (scope, body) ← bodyWithin fuel .elseBody
        return .otherwise (← spanFrom start) scope body
    else return .done

end

def statement : Parser Stmt := do statementWithin (← peek).budget

def scope (role : ScopeRole) : Parser (ScopeInfo × List Stmt) := do
  scopeWithin (← peek).budget role

end Parser

end Lsl
