import Lsl.ValueType

/-!
The operators of script expressions and the types they accept. The codes of binary operators are
part of generated names and never change.
-/

set_option autoImplicit false

namespace Lsl

inductive BinaryOperator where
  | add
  | addAssign
  | subtract
  | subtractAssign
  | multiply
  | multiplyAssign
  | divide
  | divideAssign
  | modulus
  | modulusAssign
  | assign
  | bitXor
  | bitAnd
  | bitOr
  | logicalOr
  | logicalAnd
  | less
  | lessEqual
  | greater
  | greaterEqual
  | shiftLeft
  | shiftRight
  | equal
  | notEqual
deriving DecidableEq, Inhabited, Repr

namespace BinaryOperator

def all : List BinaryOperator :=
  [add, addAssign, subtract, subtractAssign, multiply, multiplyAssign, divide, divideAssign,
    modulus, modulusAssign, assign, bitXor, bitAnd, bitOr, logicalOr, logicalAnd, less, lessEqual,
    greater, greaterEqual, shiftLeft, shiftRight, equal, notEqual]

def symbol : BinaryOperator → String
  | add => "+"
  | addAssign => "+="
  | subtract => "-"
  | subtractAssign => "-="
  | multiply => "*"
  | multiplyAssign => "*="
  | divide => "/"
  | divideAssign => "/="
  | modulus => "%"
  | modulusAssign => "%="
  | assign => "="
  | bitXor => "^"
  | bitAnd => "&"
  | bitOr => "|"
  | logicalOr => "||"
  | logicalAnd => "&&"
  | less => "<"
  | lessEqual => "<="
  | greater => ">"
  | greaterEqual => ">="
  | shiftLeft => "<<"
  | shiftRight => ">>"
  | equal => "=="
  | notEqual => "!="

def code : BinaryOperator → Nat
  | add => 0
  | addAssign => 1
  | subtract => 2
  | subtractAssign => 3
  | multiply => 4
  | multiplyAssign => 5
  | divide => 6
  | divideAssign => 7
  | modulus => 8
  | modulusAssign => 9
  | assign => 10
  | bitXor => 11
  | bitAnd => 12
  | bitOr => 13
  | logicalOr => 14
  | logicalAnd => 15
  | less => 16
  | lessEqual => 17
  | greater => 18
  | greaterEqual => 19
  | shiftLeft => 20
  | shiftRight => 21
  | equal => 22
  | notEqual => 23

/-- An assignment that first computes with the old value, such as `+=`. -/
def isModifying : BinaryOperator → Bool
  | addAssign => true
  | subtractAssign => true
  | multiplyAssign => true
  | divideAssign => true
  | modulusAssign => true
  | _ => false

def isAssignment (operator : BinaryOperator) : Bool :=
  operator == assign || operator.isModifying

def isLogical : BinaryOperator → Bool
  | logicalAnd => true
  | logicalOr => true
  | _ => false

/-- The operator a modifying assignment computes with; any other operator is its own. -/
def underlying : BinaryOperator → BinaryOperator
  | addAssign => add
  | subtractAssign => subtract
  | multiplyAssign => multiply
  | divideAssign => divide
  | modulusAssign => modulus
  | operator => operator

/-- Arithmetic on numbers gives an integer only when both operands are integers. -/
def numericResult : ValueType → ValueType → Option ValueType
  | .integer, .integer => some .integer
  | .integer, .float => some .float
  | .float, .integer => some .float
  | .float, .float => some .float
  | _, _ => none

def addResult (left right : ValueType) : Option ValueType :=
  match left, right with
  | .string, .string => some .string
  | .vector, .vector => some .vector
  | .rotation, .rotation => some .rotation
  | .void, _ => none
  | _, .void => none
  | .list, _ => some .list
  | _, .list => some .list
  | _, _ => numericResult left right

def subtractResult (left right : ValueType) : Option ValueType :=
  match left, right with
  | .vector, .vector => some .vector
  | .rotation, .rotation => some .rotation
  | _, _ => numericResult left right

def multiplyResult (left right : ValueType) : Option ValueType :=
  match left, right with
  | .vector, .float => some .vector
  | .vector, .integer => some .vector
  | .float, .vector => some .vector
  | .integer, .vector => some .vector
  | .vector, .vector => some .float
  | .vector, .rotation => some .vector
  | .rotation, .rotation => some .rotation
  | _, _ => numericResult left right

def divideResult (left right : ValueType) : Option ValueType :=
  match left, right with
  | .vector, .float => some .vector
  | .vector, .integer => some .vector
  | .vector, .rotation => some .vector
  | .rotation, .rotation => some .rotation
  | _, _ => numericResult left right

def modulusResult : ValueType → ValueType → Option ValueType
  | .integer, .integer => some .integer
  | .vector, .vector => some .vector
  | _, _ => none

def equalityResult (left right : ValueType) : Option ValueType :=
  match left, right with
  | .string, .key => some .integer
  | .key, .string => some .integer
  | .void, _ => none
  | _, _ => if left = right ∨ (left.isNumeric ∧ right.isNumeric) then some .integer else none

def orderResult (left right : ValueType) : Option ValueType :=
  if left.isNumeric ∧ right.isNumeric then some .integer else none

def bitResult : ValueType → ValueType → Option ValueType
  | .integer, .integer => some .integer
  | _, _ => none

/-- The type of an operation that assigns nothing, if its operands may have these types. -/
def result? (left : ValueType) (operator : BinaryOperator) (right : ValueType) :
    Option ValueType :=
  match operator with
  | add => addResult left right
  | subtract => subtractResult left right
  | multiply => multiplyResult left right
  | divide => divideResult left right
  | modulus => modulusResult left right
  | equal => equalityResult left right
  | notEqual => equalityResult left right
  | less => orderResult left right
  | lessEqual => orderResult left right
  | greater => orderResult left right
  | greaterEqual => orderResult left right
  | bitXor => bitResult left right
  | bitAnd => bitResult left right
  | bitOr => bitResult left right
  | logicalOr => bitResult left right
  | logicalAnd => bitResult left right
  | shiftLeft => bitResult left right
  | shiftRight => bitResult left right
  | _ => none

/-- The type of an assignment, which is the type of its target. An integer may be multiplied by a
float in place and is rounded back. -/
def assignedResult? (left : ValueType) (operator : BinaryOperator) (right : ValueType) :
    Option ValueType :=
  if left = .void ∨ right = .void then none
  else if operator = assign then
    if right.convertsTo left then some left else none
  else if operator = multiplyAssign ∧ left = .integer ∧ right = .float then some .integer
  else
    match result? left operator.underlying right with
    | some value => if value.convertsTo left then some left else none
    | none => none

end BinaryOperator

inductive PrefixOperator where
  | negate
  | not
  | bitNot
  | increment
  | decrement
deriving DecidableEq, Inhabited, Repr

namespace PrefixOperator

def all : List PrefixOperator := [negate, not, bitNot, increment, decrement]

def symbol : PrefixOperator → String
  | negate => "-"
  | not => "!"
  | bitNot => "~"
  | increment => "++"
  | decrement => "--"

/-- The operator changes its operand. -/
def isStep : PrefixOperator → Bool
  | increment => true
  | decrement => true
  | _ => false

def result? (operator : PrefixOperator) (operand : ValueType) : Option ValueType :=
  match operator, operand with
  | negate, .integer => some .integer
  | negate, .float => some .float
  | negate, .vector => some .vector
  | negate, .rotation => some .rotation
  | not, .integer => some .integer
  | bitNot, .integer => some .integer
  | increment, .integer => some .integer
  | increment, .float => some .float
  | decrement, .integer => some .integer
  | decrement, .float => some .float
  | _, _ => none

end PrefixOperator

inductive PostfixOperator where
  | increment
  | decrement
deriving DecidableEq, Inhabited, Repr

namespace PostfixOperator

def all : List PostfixOperator := [increment, decrement]

def symbol : PostfixOperator → String
  | increment => "++"
  | decrement => "--"

def result? (_operator : PostfixOperator) (operand : ValueType) : Option ValueType :=
  if operand.isNumeric then some operand else none

end PostfixOperator

/-- The parts of vectors and rotations. -/
inductive Component where
  | x
  | y
  | z
  | s
deriving DecidableEq, Inhabited, Repr

namespace Component

def name : Component → String
  | x => "x"
  | y => "y"
  | z => "z"
  | s => "s"

def ofName? : String → Option Component
  | "x" => some x
  | "y" => some y
  | "z" => some z
  | "s" => some s
  | _ => none

/-- A vector has no `s`; values of other types have no parts. -/
def existsOn (component : Component) : ValueType → Bool
  | .vector => component != s
  | .rotation => true
  | _ => false

end Component

end Lsl
