import Lsl.Parsing.Statement

/-!
Reading a whole script: globals and functions, then the default state, then the other states. A
declaration that cannot be read, or that stands where it may not, is reported and skipped.
-/

set_option autoImplicit false

namespace Lsl

namespace Parser

def topLevelStart : String := "\x7bTYPE, ID, 'default'\x7d"

def stateStart : String := "\x7b'state', <EOF>\x7d"

/-- The tokens to skip behind a broken declaration: past a semicolon or a block in braces, or up to
a token that may start a declaration. The first token is skipped whatever it is. -/
def topLevelSkip (depth : Nat) (skipped : Bool) : List Token → Nat
  | [] => 0
  | token :: rest =>
    let stops := depth = 0 ∧ skipped
    match token.kind with
    | .semicolon => if depth = 0 then 1 else 1 + topLevelSkip depth true rest
    | .openCurly => 1 + topLevelSkip (depth + 1) true rest
    | .closeCurly => if depth ≤ 1 then 1 else 1 + topLevelSkip (depth - 1) true rest
    | .type => if stops then 0 else 1 + topLevelSkip depth true rest
    | .identifier => if stops then 0 else 1 + topLevelSkip depth true rest
    | .defaultWord => if stops then 0 else 1 + topLevelSkip depth true rest
    | .stateWord => if stops then 0 else 1 + topLevelSkip depth true rest
    | _ => 1 + topLevelSkip depth true rest

def skipTopLevel : Parser Unit :=
  modify fun cursor => cursor.skip (topLevelSkip 0 false cursor.ahead)

/-- The tokens to skip behind a broken handler: past a block in braces, up to a name, or up to the
brace that closes the state. -/
def handlerSkip (depth : Nat) (skipped : Bool) : List Token → Nat
  | [] => 0
  | token :: rest =>
    match token.kind with
    | .openCurly => 1 + handlerSkip (depth + 1) true rest
    | .closeCurly =>
      if depth = 0 then 0
      else if depth = 1 then 1
      else 1 + handlerSkip (depth - 1) true rest
    | .identifier => if depth = 0 ∧ skipped then 0 else 1 + handlerSkip depth true rest
    | _ => 1 + handlerSkip depth true rest

def skipHandler : Parser Unit :=
  modify fun cursor => cursor.skip (handlerSkip 0 false cursor.ahead)

def parameter : Parser ParameterDecl := do
  let start := (← peek).start
  let type ← type
  let name := (← expect .identifier).text
  return ⟨← spanFrom start, name, type, false⟩

def parametersWithin : Nat → Parser (List ParameterDecl)
  | 0 => mismatched "TYPE"
  | fuel + 1 => do
    let first ← parameter
    if ← accept .comma then return first :: (← parametersWithin fuel) else return [first]

def parameterList : Parser ParameterList := do
  let start := (← expect .openParen).span.start
  let cursor ← peek
  let members ← if cursor.kind = .closeParen then pure [] else parametersWithin cursor.budget
  let _ ← expectOr .closeParen "\x7b',', ')'\x7d"
  return ⟨← spanFrom start, members⟩

def functionDecl : Parser FunctionDecl := do
  let cursor ← peek
  let returns ← if cursor.kind = .type then type else pure .void
  let name := (← expect .identifier).text
  let parameters ← parameterList
  let (scope, body) ← scope .function
  return { span := ← spanFrom cursor.start, name, returns, parameters, scope, body }

def handlerDecl : Parser HandlerDecl := do
  let start := (← peek).start
  let name := (← expect .identifier).text
  let parameters ← parameterList
  let (scope, body) ← scope .handler
  return { span := ← spanFrom start, name, parameters, scope, body }

def breakHandler (start : Position) (error : SyntaxError) : Parser StateMember := do
  report error
  skipHandler
  return .broken ((← peek).brokenSpan start)

/-- Handlers up to a closing brace or the end of the script. -/
def stateMembersWithin : Nat → Parser (List StateMember)
  | 0 => mismatched "'\x7d'"
  | fuel + 1 => do
    let cursor ← peek
    if cursor.kind = .closeCurly ∨ cursor.kind = .endOfFile then return []
    else
      let first ← recovering (.handler <$> handlerDecl) (breakHandler cursor.start)
      return first :: (← stateMembersWithin fuel)

/-- The word `default`, or `state` and a name. -/
def stateHead : Parser (String × Bool) := do
  if ← accept .defaultWord then return ("default", true)
  else
    let _ ← expect .stateWord
    return ((← expect .identifier).text, false)

def stateDecl : Parser StateDecl := do
  let start := (← peek).start
  let (name, isDefault) ← stateHead
  let _ ← expect .openCurly
  let members ← stateMembersWithin (← peek).budget
  let _ ← expect .closeCurly
  return { span := ← spanFrom start, name, isDefault, members }

/-- A name with a parenthesis behind it, with or without a type in front. -/
def atFunctionHeader (cursor : Cursor) : Bool :=
  match cursor.kind with
  | .type => cursor.peekKind 1 == .identifier && cursor.peekKind 2 == .openParen
  | .identifier => cursor.peekKind 1 == .openParen
  | _ => false

def globalDecl : Parser GlobalDecl := do
  let (span, decl) ← variableDeclaration
  return { span, decl }

/-- Adds the next declaration to a script. -/
def declaration (script : Script) : Parser Script := do
  let cursor ← peek
  match cursor.kind, script.defaultState.isSome with
  | .stateWord, true => return { script with states := script.states ++ [← stateDecl] }
  | _, true => mismatched stateStart
  | .stateWord, false =>
    report (cursor.mismatch topLevelStart)
    return { script with states := script.states ++ [← stateDecl] }
  | .defaultWord, false => return { script with defaultState := some (← stateDecl) }
  | .type, false =>
    if atFunctionHeader cursor then
      return { script with functions := script.functions ++ [← functionDecl] }
    else return { script with globals := script.globals ++ [← globalDecl] }
  | .identifier, false =>
    if atFunctionHeader cursor then
      return { script with functions := script.functions ++ [← functionDecl] }
    else mismatched topLevelStart
  | _, false => mismatched topLevelStart

def breakDeclaration (script : Script) (start : Position) (error : SyntaxError) :
    Parser Script := do
  report error
  skipTopLevel
  let context : BrokenContext :=
    if script.defaultState.isSome then .state else .globalDeclaration
  return { script with broken := script.broken ++ [⟨(← peek).brokenSpan start, context⟩] }

def declarationsWithin : Nat → Script → Parser Script
  | 0, script => return script
  | fuel + 1, script => do
    let cursor ← peek
    if cursor.kind = .endOfFile then return script
    else
      let extended ← recovering (declaration script) (breakDeclaration script cursor.start)
      declarationsWithin fuel extended

def script : Parser Script := do
  let cursor ← peek
  let found ← declarationsWithin cursor.budget { span := .point cursor.start }
  return { found with span := ← spanFrom cursor.start }

end Parser

/-- The script of a token list and the errors found in it. There is always a script. -/
def parse (tokens : List Token) : Script × List SyntaxError :=
  match Parser.script (.ofTokens tokens) with
  | .ok script cursor => (script, cursor.errors)
  | .error error cursor => ({ span := cursor.spanFrom cursor.start }, cursor.errors ++ [error])

end Lsl
