import Lsl.Parsing.Cursor

/-!
Reading expressions. An expression is an operand and the operators behind it; an operator is taken
along as long as it binds more tightly than what stands in front of the operand.
-/

set_option autoImplicit false

namespace Lsl

/-- How tightly an operator binds, from the loosest to the tightest. -/
inductive Power where
  | lowest
  | assignment
  | logical
  | bitOr
  | bitXor
  | bitAnd
  | equality
  | relational
  | shift
  | additive
  | multiplicative
  | unary
  | step
  | member
deriving DecidableEq, Inhabited, Repr

namespace Power

def rank : Power → Nat
  | lowest => 0
  | assignment => 1
  | logical => 2
  | bitOr => 3
  | bitXor => 4
  | bitAnd => 5
  | equality => 6
  | relational => 7
  | shift => 8
  | additive => 9
  | multiplicative => 10
  | unary => 11
  | step => 12
  | member => 13

end Power

def BinaryOperator.power : BinaryOperator → Power
  | .logicalAnd => .logical
  | .logicalOr => .logical
  | .bitOr => .bitOr
  | .bitXor => .bitXor
  | .bitAnd => .bitAnd
  | .equal => .equality
  | .notEqual => .equality
  | .less => .relational
  | .lessEqual => .relational
  | .greater => .relational
  | .greaterEqual => .relational
  | .shiftLeft => .shift
  | .shiftRight => .shift
  | .add => .additive
  | .subtract => .additive
  | .multiply => .multiplicative
  | .divide => .multiplicative
  | .modulus => .multiplicative
  | _ => .assignment

/-- The power of a token behind an operand; `lowest` for one that continues no expression. -/
def TokenKind.power : TokenKind → Power
  | .plusPlus => .step
  | .minusMinus => .step
  | .dot => .member
  | kind =>
    match kind.binaryOperator? with
    | some operator => operator.power
    | none => .lowest

namespace Parser

def expressionStart : String :=
  "\x7b'(', '[', '<', '-', '!', '~', '++', '--', ID, INT, HEX_LITERAL, FLOAT, QUOTED_STRING\x7d"

def afterExpression : String :=
  "\x7b';', ',', ')', ']', '>', '*', '/', '%', '+', '-', '<<', '>>', '<', '<=', '>=', '==', " ++
    "'!=', '&', '^', '|', '&&', '||'\x7d"

def componentName : Parser (Component × Span) := do
  let token ← expect .identifier
  match Component.ofName? token.text with
  | some component => return (component, token.span)
  | none =>
    throw ⟨.grammar, token.text,
      "mismatched input '" ++ token.text ++ "' expecting \x7b'x', 'y', 'z', 's'\x7d", token.span⟩

def stepBehind (left : Expr) (operator : PostfixOperator) : Parser Expr := do
  if left.isAssignable then
    let token ← next
    return .postfixed { span := left.span.merge token.span } operator left
  else mismatched afterExpression

def memberBehind (left : Expr) : Parser Expr := do
  if left.isReference then
    let _ ← next
    let (part, span) ← componentName
    return .component { span := left.span.merge span } part left
  else mismatched afterExpression

mutual

/-- An expression of operators that bind more tightly than the given power. The first argument
bounds the number of steps. -/
def expressionWithin : Nat → Power → Parser Expr
  | 0, _ => mismatched expressionStart
  | fuel + 1, power => do
    let left ← operandWithin fuel
    extendWithin fuel power left

/-- The operators behind an expression, as far as they bind more tightly. -/
def extendWithin : Nat → Power → Expr → Parser Expr
  | 0, _, _ => mismatched afterExpression
  | fuel + 1, power, left => do
    let cursor ← peek
    if cursor.kind.power.rank ≤ power.rank then return left
    else
      match cursor.kind with
      | .plusPlus => extendWithin fuel power (← stepBehind left .increment)
      | .minusMinus => extendWithin fuel power (← stepBehind left .decrement)
      | .dot => extendWithin fuel power (← memberBehind left)
      | kind =>
        match kind.binaryOperator? with
        | none => return left
        | some operator =>
          if operator.isAssignment && !left.isAssignable then mismatched afterExpression
          else
            let _ ← next
            let right ← expressionWithin fuel
              (if operator.isAssignment then .lowest else operator.power)
            extendWithin fuel power
              (.binary { span := left.span.merge right.span } operator left right)

def operandWithin : Nat → Parser Expr
  | 0 => mismatched expressionStart
  | fuel + 1 => do
    let token := (← peek).current
    match token.kind with
    | .integer =>
      let _ ← next
      return .integer { span := token.span } token.text
    | .hex =>
      let _ ← next
      return .hex { span := token.span } token.text
    | .float =>
      let _ ← next
      return .float { span := token.span } token.text
    | .string =>
      let _ ← next
      return .string { span := token.span } token.text
    | .identifier =>
      let _ ← next
      if ← accept .openParen then
        let arguments ← listWithin fuel .closeParen
        let _ ← expect .closeParen
        return .call { span := ← spanFrom token.span.start } token.text arguments.span
          arguments.members .unresolved
      else return .reference { span := token.span } token.text .unresolved
    | .openParen =>
      let _ ← next
      if (← peek).kind = .type then
        let target ← type
        let _ ← expect .closeParen
        let operand ← expressionWithin fuel .unary
        return .cast { span := ← spanFrom token.span.start } target operand
      else
        let inner ← expressionWithin fuel .lowest
        let _ ← expect .closeParen
        return .grouped { span := ← spanFrom token.span.start } inner
    | .openBracket =>
      let _ ← next
      let elements ← listWithin fuel .closeBracket
      let _ ← expect .closeBracket
      return .list { span := ← spanFrom token.span.start } elements.span elements.members
    | .less =>
      let _ ← next
      let x ← expressionWithin fuel .lowest
      let _ ← expect .comma
      let y ← expressionWithin fuel .lowest
      let _ ← expect .comma
      -- The last components stop before a relational operator, so that `>` closes the literal.
      let z ← expressionWithin fuel .relational
      if ← accept .greater then
        return .vector { span := ← spanFrom token.span.start } x y z
      else if ← accept .comma then
        let s ← expressionWithin fuel .relational
        let _ ← expect .greater
        return .rotation { span := ← spanFrom token.span.start } x y z s
      else mismatched "\x7b',', '>'\x7d"
    | kind =>
      match kind.prefixOperator? with
      | some operator =>
        let _ ← next
        let operand ← expressionWithin fuel .unary
        return .prefixed { span := token.span.merge operand.span } operator operand
      | none => mismatched expressionStart

/-- Expressions separated by commas, none if the terminator comes first. -/
def listWithin : Nat → TokenKind → Parser ExprList
  | 0, _ => mismatched expressionStart
  | fuel + 1, terminator => do
    let cursor ← peek
    if cursor.kind = terminator then return ⟨.point cursor.start, []⟩
    else
      let members ← membersWithin fuel
      return ⟨← spanFrom cursor.start, members⟩

def membersWithin : Nat → Parser (List Expr)
  | 0 => mismatched expressionStart
  | fuel + 1 => do
    let first ← expressionWithin fuel .lowest
    if ← accept .comma then return first :: (← membersWithin fuel)
    else return [first]

end

def expression : Parser Expr := do expressionWithin (← peek).budget .lowest

def expressionList (terminator : TokenKind) : Parser ExprList := do
  listWithin (← peek).budget terminator

end Parser

/-- The expression that makes up a whole token list. -/
def parseExpression (tokens : List Token) : Except SyntaxError Expr :=
  let reader : Parser Expr := do
    let expr ← Parser.expression
    let _ ← Parser.expect .endOfFile
    return expr
  match reader (.ofTokens tokens) with
  | .ok expr _ => .ok expr
  | .error error _ => .error error

end Lsl
