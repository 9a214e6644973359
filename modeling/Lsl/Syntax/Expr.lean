import Lsl.Signature
import Lsl.Token

/-!
The expressions of a script. The parser builds them with nothing resolved; checking fills in their
types, what their names stand for and which of them are at fault.

A declaration is known by the offset at which it starts, and a code scope by a number of its own.
-/

set_option autoImplicit false

namespace Lsl

/-- What a variable reference stands for. -/
inductive Binding where
  | unresolved
  | global (declaration : Nat)
  | inScope (declaration scope : Nat)
  | parameter (declaration : Nat)
  | constant
deriving DecidableEq, Inhabited, Repr

inductive CallTarget where
  | unresolved
  | script (declaration : Nat)
  | library (signature : FunctionSignature)
deriving DecidableEq, Inhabited, Repr

/-- Where an expression stands and what checking found out about it. The type is missing when it
could not be told. -/
structure ExprInfo where
  span : Span
  type : Option ValueType := none
  faulty : Bool := false
deriving DecidableEq, Inhabited, Repr

inductive Expr where
  | integer (info : ExprInfo) (raw : String)
  | hex (info : ExprInfo) (raw : String)
  | float (info : ExprInfo) (raw : String)
  | string (info : ExprInfo) (raw : String)
  | vector (info : ExprInfo) (x y z : Expr)
  | rotation (info : ExprInfo) (x y z s : Expr)
  | list (info : ExprInfo) (inner : Span) (elements : List Expr)
  | reference (info : ExprInfo) (name : String) (binding : Binding)
  | call (info : ExprInfo) (name : String) (inner : Span) (arguments : List Expr)
    (target : CallTarget)
  | binary (info : ExprInfo) (operator : BinaryOperator) (left right : Expr)
  | prefixed (info : ExprInfo) (operator : PrefixOperator) (operand : Expr)
  | postfixed (info : ExprInfo) (operator : PostfixOperator) (operand : Expr)
  | cast (info : ExprInfo) (target : ValueType) (operand : Expr)
  | grouped (info : ExprInfo) (inner : Expr)
  | component (info : ExprInfo) (part : Component) (target : Expr)
deriving Inhabited, Repr

namespace Expr

def info : Expr → ExprInfo
  | integer info _ => info
  | hex info _ => info
  | float info _ => info
  | string info _ => info
  | vector info _ _ _ => info
  | rotation info _ _ _ _ => info
  | list info _ _ => info
  | reference info _ _ => info
  | call info _ _ _ _ => info
  | binary info _ _ _ => info
  | prefixed info _ _ => info
  | postfixed info _ _ => info
  | cast info _ _ => info
  | grouped info _ => info
  | component info _ _ => info

def withInfo : Expr → ExprInfo → Expr
  | integer _ raw, info => integer info raw
  | hex _ raw, info => hex info raw
  | float _ raw, info => float info raw
  | string _ raw, info => string info raw
  | vector _ x y z, info => vector info x y z
  | rotation _ x y z s, info => rotation info x y z s
  | list _ inner elements, info => list info inner elements
  | reference _ name binding, info => reference info name binding
  | call _ name inner arguments target, info => call info name inner arguments target
  | binary _ operator left right, info => binary info operator left right
  | prefixed _ operator operand, info => prefixed info operator operand
  | postfixed _ operator operand, info => postfixed info operator operand
  | cast _ target operand, info => cast info target operand
  | grouped _ inner, info => grouped info inner
  | component _ part target, info => component info part target

def span (expr : Expr) : Span := expr.info.span

def type? (expr : Expr) : Option ValueType := expr.info.type

/-- The static type, `void` where none was recorded. -/
def type (expr : Expr) : ValueType := expr.info.type.getD .void

/-- The expression with an error reported at it. -/
def blamed (expr : Expr) : Expr := expr.withInfo { expr.info with faulty := true }

mutual

def hasErrors : Expr → Bool
  | integer info _ => info.faulty
  | hex info _ => info.faulty
  | float info _ => info.faulty
  | string info _ => info.faulty
  | vector info x y z => info.faulty || x.hasErrors || y.hasErrors || z.hasErrors
  | rotation info x y z s =>
    info.faulty || x.hasErrors || y.hasErrors || z.hasErrors || s.hasErrors
  | list info _ elements => info.faulty || listHasErrors elements
  | reference info _ _ => info.faulty
  | call info _ _ arguments _ => info.faulty || listHasErrors arguments
  | binary info _ left right => info.faulty || left.hasErrors || right.hasErrors
  | prefixed info _ operand => info.faulty || operand.hasErrors
  | postfixed info _ operand => info.faulty || operand.hasErrors
  | cast info _ operand => info.faulty || operand.hasErrors
  | grouped info inner => info.faulty || inner.hasErrors
  | component info _ target => info.faulty || target.hasErrors

def listHasErrors : List Expr → Bool
  | [] => false
  | expr :: rest => expr.hasErrors || listHasErrors rest

end

mutual

/-- Evaluating the expression may change something. -/
def hasEffects : Expr → Bool
  | integer _ _ => false
  | hex _ _ => false
  | float _ _ => false
  | string _ _ => false
  | vector _ x y z => x.hasEffects || y.hasEffects || z.hasEffects
  | rotation _ x y z s => x.hasEffects || y.hasEffects || z.hasEffects || s.hasEffects
  | list _ _ elements => anyHasEffects elements
  | reference _ _ _ => false
  | call _ _ _ _ _ => true
  | binary _ operator left right =>
    operator.isAssignment || left.hasEffects || right.hasEffects
  | prefixed _ operator operand => operator.isStep || operand.hasEffects
  | postfixed _ _ _ => true
  | cast _ _ operand => operand.hasEffects
  | grouped _ inner => inner.hasEffects
  | component _ _ target => target.hasEffects

def anyHasEffects : List Expr → Bool
  | [] => false
  | expr :: rest => expr.hasEffects || anyHasEffects rest

end

def isNumber : Expr → Bool
  | integer _ _ => true
  | hex _ _ => true
  | float _ _ => true
  | _ => false

def isLiteral : Expr → Bool
  | string _ _ => true
  | expr => expr.isNumber

mutual

/-- The expressions a global may be initialized with: literals, negated numbers, names, and vectors,
rotations and lists of those. -/
def isConstant : Expr → Bool
  | integer _ _ => true
  | hex _ _ => true
  | float _ _ => true
  | string _ _ => true
  | reference _ _ _ => true
  | prefixed _ .negate operand => operand.isNumber
  | vector _ x y z => x.isConstant && y.isConstant && z.isConstant
  | rotation _ x y z s => x.isConstant && y.isConstant && z.isConstant && s.isConstant
  | list _ _ elements => allConstant elements
  | _ => false

def allConstant : List Expr → Bool
  | [] => true
  | expr :: rest => expr.isConstant && allConstant rest

end

/-- Only variables and their components can be assigned to. -/
def isAssignable : Expr → Bool
  | reference _ _ _ => true
  | component _ _ _ => true
  | _ => false

def isReference : Expr → Bool
  | reference _ _ _ => true
  | _ => false

end Expr

end Lsl
