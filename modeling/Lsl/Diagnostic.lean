import Lsl.Source
import Lsl.Text.Quoted
import Lsl.ValueType

/-!
What the compiler says about a script: errors, which stop it, and warnings, which do not. A
diagnostic is a problem and the place where it was found.
-/

set_option autoImplicit false

namespace Lsl

inductive Severity where
  | error
  | warning
deriving DecidableEq, Inhabited, Repr

/-- The groups callers tell apart. -/
inductive Category where
  | syntactic
  | nonAssignable
  | semantic
  | advisory
deriving DecidableEq, Inhabited, Repr

inductive Problem where
  | unrecognisedToken (token : String)
  | unterminatedString
  | unterminatedComment
  | grammar (message : String)
  | nonAssignable (message : String)
  | undeclaredVariable (name : String)
  | variableUsedEarly (name : String)
  | repeatedVariable (name : String)
  | repeatedParameter (name : String)
  | undeclaredFunction (name : String)
  | repeatedFunction (name : String)
  | libraryFunctionRedefined (name : String)
  | libraryConstantRedefined (name : String)
  | undeclaredState (name : String)
  | repeatedState (name : String)
  | missingDefaultState
  | stateWithoutHandlers (name : String)
  | unknownEvent (name : String)
  | repeatedHandler (event state : String)
  | handlerMismatch (given expected : String)
  | undeclaredLabel (name : String)
  | repeatedLabel (name : String)
  | jumpIntoBlock (label : String)
  | argumentCount (function : String) (expected received : Nat)
  | argumentType (function : String) (place : Nat) (expected received : ValueType)
  | noOverload (function : String) (arguments : List ValueType)
  | binaryOperands (left : ValueType) (operator : String) (right : ValueType)
  | prefixOperand (operator : String) (operand : ValueType)
  | postfixOperand (operator : String) (operand : ValueType)
  | impossibleCast (source target : ValueType)
  | missingComponent (component : String) (type : ValueType)
  | constantAssigned (name : String)
  | typeMismatch (expected received : ValueType)
  | notListElement (received : ValueType)
  | returnMismatch (expected received : ValueType)
  | valueFromVoidFunction (function : String)
  | missingReturnValue (function : String)
  | missingReturn (function : String)
  | voidCondition
  | initializerNotConstant (name : String)
  | deadCode
  | valueFromHandler (event : String)
  | unusedVariable (name : String)
  | deprecatedFunction (name : String)
  | stateChangeInFunction (function : String)
deriving DecidableEq, Inhabited, Repr

namespace Problem

open Text (quote)

def message : Problem → String
  | unrecognisedToken token => "unrecognised token: " ++ quote token
  | unterminatedString => "unterminated string literal"
  | unterminatedComment => "unterminated block comment"
  | grammar message => message
  | nonAssignable message => "assignment to non-assignable expression (" ++ message ++ ")"
  | undeclaredVariable name => "variable " ++ quote name ++ " not declared"
  | variableUsedEarly name =>
    "global variable " ++ quote name ++ " used before its declaration"
  | repeatedVariable name => "variable " ++ quote name ++ " already declared"
  | repeatedParameter name => "parameter " ++ quote name ++ " already declared"
  | undeclaredFunction name => "function " ++ quote name ++ " not declared"
  | repeatedFunction name => "function " ++ quote name ++ " already declared"
  | libraryFunctionRedefined name =>
    "function " ++ quote name ++ " is already defined by the library"
  | libraryConstantRedefined name => quote name ++ " is already defined as a library constant"
  | undeclaredState name => "state " ++ quote name ++ " not declared"
  | repeatedState name => "state " ++ quote name ++ " already declared"
  | missingDefaultState => "missing default state"
  | stateWithoutHandlers name => "state " ++ quote name ++ " has no event handlers"
  | unknownEvent name => "unknown event handler " ++ quote name
  | repeatedHandler event state =>
    "event handler " ++ quote event ++ " already declared in state " ++ quote state
  | handlerMismatch given expected =>
    "event handler signature " ++ quote given ++ " does not match " ++ quote expected
  | undeclaredLabel name => "label " ++ quote name ++ " not declared"
  | repeatedLabel name => "label " ++ quote name ++ " already declared"
  | jumpIntoBlock label => "cannot jump to label " ++ quote label ++ " inside a nested block"
  | argumentCount function expected received =>
    "call to " ++ quote function ++ ": expected " ++ toString expected ++
      " arguments, received " ++ toString received
  | argumentType function place expected received =>
    "call to " ++ quote function ++ ": argument " ++ toString place ++ " expected " ++
      expected.keyword ++ ", received " ++ received.keyword
  | noOverload function arguments =>
    "no overload of " ++ quote function ++ " accepts (" ++
      ", ".intercalate (arguments.map ValueType.keyword) ++ ")"
  | binaryOperands left operator right =>
    "operator " ++ quote operator ++ " cannot be applied to " ++ left.keyword ++ " and " ++
      right.keyword
  | prefixOperand operator operand =>
    "prefix operator " ++ quote operator ++ " cannot be applied to " ++ operand.keyword
  | postfixOperand operator operand =>
    "postfix operator " ++ quote operator ++ " cannot be applied to " ++ operand.keyword
  | impossibleCast source target =>
    "cannot cast " ++ source.keyword ++ " to " ++ target.keyword
  | missingComponent component type =>
    "component " ++ quote component ++ " does not exist on " ++ type.keyword
  | constantAssigned name => "cannot assign to library constant " ++ quote name
  | typeMismatch expected received =>
    "types do not match: expected " ++ expected.keyword ++ ", received " ++ received.keyword
  | notListElement received =>
    "types do not match: expected list element, received " ++ received.keyword
  | returnMismatch expected received =>
    "return types do not match: expected " ++ expected.keyword ++ ", received " ++
      received.keyword
  | valueFromVoidFunction function =>
    "function " ++ quote function ++ " does not return a value"
  | missingReturnValue function => "function " ++ quote function ++ " must return a value"
  | missingReturn function =>
    "not all code paths in " ++ quote function ++ " return a value"
  | voidCondition => "condition expression has no value"
  | initializerNotConstant name =>
    "global variable " ++ quote name ++ " must be initialized with a constant expression"
  | deadCode => "unreachable code detected"
  | valueFromHandler event =>
    "value returned from event handler " ++ quote event ++ " is discarded"
  | unusedVariable name => "local variable " ++ quote name ++ " is never used"
  | deprecatedFunction name => "library function " ++ quote name ++ " is deprecated"
  | stateChangeInFunction function => "state change inside function " ++ quote function

def severity : Problem → Severity
  | deadCode => .warning
  | valueFromHandler _ => .warning
  | unusedVariable _ => .warning
  | deprecatedFunction _ => .warning
  | stateChangeInFunction _ => .warning
  | _ => .error

def category : Problem → Category
  | nonAssignable _ => .nonAssignable
  | unrecognisedToken _ => .syntactic
  | unterminatedString => .syntactic
  | unterminatedComment => .syntactic
  | grammar _ => .syntactic
  | problem => if problem.severity = .warning then .advisory else .semantic

/-- The name under which a kind of problem is reported. -/
def name : Problem → String
  | unrecognisedToken _ => "UnrecognisedToken"
  | unterminatedString => "UnterminatedString"
  | unterminatedComment => "UnterminatedComment"
  | grammar _ => "SyntaxError"
  | nonAssignable _ => "AssignmentToNonAssignable"
  | undeclaredVariable _ => "VariableNotDeclared"
  | variableUsedEarly _ => "VariableUsedBeforeDeclaration"
  | repeatedVariable _ => "VariableAlreadyDeclared"
  | repeatedParameter _ => "ParameterAlreadyDeclared"
  | undeclaredFunction _ => "FunctionNotDeclared"
  | repeatedFunction _ => "FunctionAlreadyDeclared"
  | libraryFunctionRedefined _ => "LibraryFunctionRedefined"
  | libraryConstantRedefined _ => "LibraryConstantRedefined"
  | undeclaredState _ => "StateNotDeclared"
  | repeatedState _ => "StateAlreadyDeclared"
  | missingDefaultState => "MissingDefaultState"
  | stateWithoutHandlers _ => "StateWithoutEventHandlers"
  | unknownEvent _ => "UnknownEventHandler"
  | repeatedHandler _ _ => "EventHandlerAlreadyDeclared"
  | handlerMismatch _ _ => "EventHandlerSignatureMismatch"
  | undeclaredLabel _ => "LabelNotDeclared"
  | repeatedLabel _ => "LabelAlreadyDeclared"
  | jumpIntoBlock _ => "JumpIntoNestedScope"
  | argumentCount _ _ _ => "UnexpectedArguments"
  | argumentType _ _ _ _ => "ArgumentTypeMatchError"
  | noOverload _ _ => "NoMatchingOverload"
  | binaryOperands _ _ _ => "InvalidBinaryOperation"
  | prefixOperand _ _ => "InvalidPrefixOperation"
  | postfixOperand _ _ => "InvalidPostfixOperation"
  | impossibleCast _ _ => "InvalidCast"
  | missingComponent _ _ => "InvalidComponentAccess"
  | constantAssigned _ => "AssignmentToConstant"
  | typeMismatch _ _ => "TypeMatchError"
  | notListElement _ => "TypeMatchError"
  | returnMismatch _ _ => "ReturnTypeMatchError"
  | valueFromVoidFunction _ => "ReturnValueFromVoidFunction"
  | missingReturnValue _ => "MissingReturnValue"
  | missingReturn _ => "NotAllCodePathsReturn"
  | voidCondition => "VoidCondition"
  | initializerNotConstant _ => "NonConstantGlobalInitializer"
  | deadCode => "DeadCode"
  | valueFromHandler _ => "ReturnValueFromEventHandler"
  | unusedVariable _ => "UnusedLocalVariable"
  | deprecatedFunction _ => "DeprecatedFunction"
  | stateChangeInFunction _ => "StateChangeInFunction"

/-- Advice on what to change. -/
def tip? : Problem → Option String
  | unterminatedString => some "add the closing `\"`"
  | unterminatedComment => some "add the closing `*/`"
  | nonAssignable _ => some "only variables and their components can be assigned to"
  | variableUsedEarly name =>
    some ("global `" ++ name ++ "` must be declared before the global that uses it")
  | missingDefaultState => some "add a `default \x7b ... \x7d` state"
  | stateWithoutHandlers name =>
    some ("state `" ++ name ++ "` needs at least one event handler")
  | handlerMismatch _ expected => some ("expected `" ++ expected ++ "`")
  | argumentCount _ expected received =>
    some ("Expected " ++ toString expected ++ " arguments, received " ++ toString received)
  | impossibleCast source target =>
    some ("`" ++ source.keyword ++ "` cannot be converted to `" ++ target.keyword ++ "`")
  | missingReturn _ => some "add a return statement at the end of the function"
  | initializerNotConstant _ =>
    some "globals may only be initialized with literals or other globals"
  | jumpIntoBlock _ => some "move the label into the jump's block or a block that encloses it"
  | deadCode => some "this code can never be reached"
  | _ => none

end Problem

structure Diagnostic where
  problem : Problem
  span : Span
deriving DecidableEq, Inhabited, Repr

namespace Diagnostic

def isError (diagnostic : Diagnostic) : Bool := diagnostic.problem.severity == .error

/-- The place and the message on one line. -/
def summary (diagnostic : Diagnostic) : String :=
  let place := diagnostic.span.start
  "(" ++ toString place.line ++ ":" ++ toString place.column ++ ") " ++
    diagnostic.problem.message

end Diagnostic

end Lsl
