import Lsl.Generation.Constant
import Lsl.Syntax.Uses

/-!
Code for expressions. Operands of binary operators are evaluated from right to left, so that all
operations but assignments are made by methods that take the right operand first.
-/

set_option autoImplicit false

namespace Lsl

/-- What generated code depends on besides the script itself. -/
structure Manner where
  library : Library
  settings : Settings
  uses : List Use := []
deriving Inhabited

def localName (scope : Nat) (name : String) : String := "LV" ++ toString scope ++ "_" ++ name

def parameterName (name : String) : String := "PM_" ++ name

def referenceCode (manner : Manner) (name : String) : Binding → Code
  | .global _ => .global name
  | .inScope _ scope => .plain (localName scope name)
  | .parameter _ => .plain (parameterName name)
  | .constant =>
    match manner.library.constant? name with
    | some constant => constantCode manner.settings constant
    | none => .fault ("unknown library constant " ++ Text.quote name)
  | .unresolved => .fault ("unresolved variable " ++ Text.quote name)

/-- The call goes through a module. -/
def isModuleCall (manner : Manner) : CallTarget → Bool
  | .library signature =>
    (manner.library.function? signature).any (·.metadata.isModuleCall)
  | _ => false

def callCode (manner : Manner) (name : String) (target : CallTarget) (arguments : List Code) :
    Code :=
  match target with
  | .script _ => .invoke (.script name) arguments
  | .library signature =>
    match manner.library.function? signature with
    | none => .fault ("unknown library function " ++ Text.quote name)
    | some function =>
      if function.metadata.isModuleCall then
        .invoke (.module function.signature.returns.moduleInvoker name) arguments
      else .invoke (.library name) arguments
  | .unresolved => .fault ("unresolved call to " ++ Text.quote name)

/-- A value for a variable of a type. Strings stored in keys are converted, unless keys are
strings. -/
def storedCode (manner : Manner) (target : ValueType) (value : Expr) (code : Code) : Code :=
  if manner.settings.keysAreStrings ∨ target ≠ .key ∨ value.type ≠ .string then code
  else
    match value with
    | .string _ raw => .plain (quotedLiteral raw)
    | _ => .create (ValueType.key.targetName false) "," [code]

/-- An operation on operands whose code is given. -/
def binaryCode (manner : Manner) (result : ValueType) (operator : BinaryOperator)
    (left right : Expr) (leftCode rightCode : Code) : Code :=
  let operation (operator : BinaryOperator) (returns : ValueType) : Operation :=
    ⟨left.type, operator, right.type, returns⟩
  if operator = .logicalAnd then .logical "&" rightCode leftCode
  else if operator = .logicalOr then .logical "|" rightCode leftCode
  else if operator = .multiplyAssign ∧ left.type = .integer ∧ right.type = .float then
    .assign leftCode (.roundedProduct leftCode rightCode)
  else if operator = .assign then
    .assign leftCode (storedCode manner left.type right rightCode)
  else if operator.isModifying then
    let plain := operator.underlying
    let returns := (plain.result? left.type right.type).getD result
    .assign leftCode (.operate (operation plain returns) rightCode leftCode)
  else .operate (operation operator result) rightCode leftCode

/-- Vectors and rotations are negated by a helper. An operator that changes nothing is no statement
by itself. -/
def prefixedCode (place : Place) (operator : PrefixOperator) (operand : ValueType)
    (code : Code) : Code :=
  if operand = .rotation ∨ (operand = .vector ∧ operator = .negate) then
    .invoke (.utility "Negate") [code]
  else
    let applied :=
      if operator.isStep then Code.before operator.symbol code
      else .before operator.symbol (.grouped code)
    if place = .statement then
      if operator.isStep then applied else .invoke (.utility "ForceStatement") [applied]
    else if place.isListed then applied
    else .grouped applied

def postfixedCode (place : Place) (operator : PostfixOperator) (code : Code) : Code :=
  let applied := Code.behind code operator.symbol
  if place = .statement ∨ place.isListed then applied else .grouped applied

def groupedCode (place : Place) (code : Code) : Code :=
  if place = .statement then .invoke (.utility "ForceStatement") [code]
  else if place.isListed then code
  else .grouped code

def isTextual (type : ValueType) : Bool := type == .string || type == .key

def castCode (manner : Manner) (target : ValueType) (operand : Expr) (code : Code) : Code :=
  let source := operand.type
  let isSameText := manner.settings.keysAreStrings && isTextual target && isTextual source
  if target = source ∨ isSameText then code
  else if target = .key ∧ source = .string then
    let content := match operand with
      | .string _ raw => Code.plain (quotedLiteral raw)
      | _ => code
    .grouped (.create (ValueType.key.targetName false) "," [content])
  else .convert (target.targetName false) code

mutual

def Expr.code (manner : Manner) (place : Place) : Expr → Code
  | .integer _ raw => integerCode place raw
  | .hex _ raw => hexCode place raw
  | .float _ raw => floatCode place raw
  | .string _ raw => stringCode place raw
  | .vector _ x y z =>
    .grouped (.create (ValueType.vector.targetName false) ", "
      [x.code manner .part, y.code manner .part, z.code manner .part])
  | .rotation _ x y z s =>
    .grouped (.create (ValueType.rotation.targetName false) ", "
      [x.code manner .part, y.code manner .part, z.code manner .part, s.code manner .part])
  | .list _ _ elements =>
    .grouped (.create (ValueType.list.targetName false) ","
      (Expr.codes manner .element elements))
  | .reference _ name binding => referenceCode manner name binding
  | .call _ name _ arguments target =>
    callCode manner name target
      (Expr.codes manner (.argument (isModuleCall manner target)) arguments)
  | .binary info operator left right =>
    let inside := if operator.isLogical then Place.logicalOperand else .operand
    binaryCode manner (info.type.getD .void) operator left right (left.code manner inside)
      (right.code manner inside)
  | .prefixed _ operator operand =>
    let inside := if operator = .negate then Place.negated else .elsewhere
    prefixedCode place operator operand.type (operand.code manner inside)
  | .postfixed _ operator operand =>
    postfixedCode place operator (operand.code manner .elsewhere)
  | .cast _ target operand => castCode manner target operand (operand.code manner .elsewhere)
  | .grouped _ inner => groupedCode place (inner.code manner .elsewhere)
  | .component _ part target => .component (target.code manner .elsewhere) part.name

def Expr.codes (manner : Manner) (place : Place) : List Expr → List Code
  | [] => []
  | expr :: rest => expr.code manner place :: Expr.codes manner place rest

end

def castLiteral? : Expr → Option String
  | .cast _ _ (.string _ raw) => some (quotedLiteral raw)
  | _ => none

/-- An expression as a truth value. A string counts as true unless it is empty, and a key if it is
valid, which only keys that are no strings can tell. -/
def conditionCode (manner : Manner) (condition : Expr) : Code :=
  let code := condition.code manner .elsewhere
  if condition.type = .key ∧ manner.settings.keysAreStrings then
    .create (ValueType.key.targetName false) ","
      [((castLiteral? condition).map Code.plain).getD code]
  else if condition.type = .string then .invoke (.utility "ToBool") [code]
  else code

end Lsl
