import Lsl.Operator

/-!
What the run time calls the types of script values, and the values it gives to variables that have
no other.
-/

set_option autoImplicit false

namespace Lsl

namespace ValueType

/-- The type of values at run time. Keys are strings if asked for. -/
def targetName (type : ValueType) (keysAreStrings : Bool) : String :=
  match type with
  | vector => "LSL_Types.Vector3"
  | rotation => "LSL_Types.Quaternion"
  | list => "LSL_Types.list"
  | key => if keysAreStrings then "LSL_Types.LSLString" else "LSL_Types.key"
  | integer => "LSL_Types.LSLInteger"
  | string => "LSL_Types.LSLString"
  | float => "LSL_Types.LSLFloat"
  | void => "void"

def defaultValue (type : ValueType) : String :=
  let name := type.targetName false
  match type with
  | string => "\"\""
  | key => "\"\""
  | integer => "0"
  | float => "0.0"
  | rotation => "new " ++ name ++ "(0,0,0,1)"
  | vector => "new " ++ name ++ "(0,0,0)"
  | _ => "new " ++ name ++ "()"

def moduleInvoker : ValueType → String
  | void => "modInvokeN"
  | string => "modInvokeS"
  | integer => "modInvokeI"
  | float => "modInvokeF"
  | key => "modInvokeK"
  | list => "modInvokeL"
  | vector => "modInvokeV"
  | rotation => "modInvokeR"

end ValueType

/-- A binary operation that generated code makes by calling a method of its own, so that the right
operand is evaluated first. -/
structure Operation where
  left : ValueType
  operator : BinaryOperator
  right : ValueType
  returns : ValueType
deriving DecidableEq, Inhabited, Repr

namespace Operation

def name (operation : Operation) : String :=
  "_o" ++ toString operation.left.code ++ toString operation.operator.code ++
    toString operation.right.code

/-- Operations are ordered by their codes, from left to right. -/
def rank (operation : Operation) : Nat :=
  ((operation.left.code * 24 + operation.operator.code) * 8 + operation.right.code) * 8 +
    operation.returns.code

def insert (operation : Operation) : List Operation → List Operation
  | [] => [operation]
  | other :: rest =>
    if operation.rank < other.rank then operation :: other :: rest
    else if operation.rank = other.rank then other :: rest
    else other :: insert operation rest

def sorted (operations : List Operation) : List Operation :=
  operations.foldr insert []

end Operation

end Lsl
