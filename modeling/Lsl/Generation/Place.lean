import Lsl.Literal
import Lsl.Target.Code

/-!
What stands directly around an expression, as far as generated code depends on it, and how literals
are written there.
-/

set_option autoImplicit false

namespace Lsl

inductive Place where
  | statement
  /-- An element of a list, or a member of a clause of a loop. -/
  | element
  | argument (throughModule : Bool)
  | operand
  | logicalOperand
  | part
  | initializer
  | negated
  | elsewhere
deriving DecidableEq, Inhabited, Repr

/-- One of several expressions between commas. -/
def Place.isListed : Place → Bool
  | element => true
  | argument _ => true
  | _ => false

inductive LiteralKind where
  | integer
  | hex
  | float
  | string
deriving DecidableEq, Inhabited, Repr

def LiteralKind.type : LiteralKind → ValueType
  | integer => .integer
  | hex => .integer
  | float => .float
  | string => .string

/-- A literal in the place is wrapped in an object of its run time type. -/
def LiteralKind.isBoxed (kind : LiteralKind) (place : Place) : Bool :=
  match place with
  | .operand => false
  | .logicalOperand => true
  | .part => kind == .hex || kind == .string
  | .argument throughModule => kind == .hex || throughModule
  | .initializer => kind != .string
  | _ => true

def literalCode (place : Place) (kind : LiteralKind) (text : String) : Code :=
  if kind.isBoxed place then .create (kind.type.targetName false) "," [.plain text]
  else .plain text

/-- An integer that does not fit is minus one, to which a minus in front of it belongs. -/
def overflowed (place : Place) : String := if place = .negated then "1" else "-1"

def integerCode (place : Place) (raw : String) : Code :=
  literalCode place .integer
    (if Literal.integerFit raw = .fits then raw else overflowed place)

def hexCode (place : Place) (raw : String) : Code :=
  literalCode place .hex (if Literal.hexFit raw = .fits then raw else overflowed place)

def floatCode (place : Place) (raw : String) : Code :=
  literalCode place .float <|
    match Literal.floatFit raw with
    | .overflow => "float.PositiveInfinity"
    | .underflow => "0.0"
    | .fits => Literal.formatFloat raw

def quotedLiteral (raw : String) : String := Literal.encodeString (Literal.decodeString raw)

def stringCode (place : Place) (raw : String) : Code :=
  literalCode place .string (quotedLiteral raw)

end Lsl
