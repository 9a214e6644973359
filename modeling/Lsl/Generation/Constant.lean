import Lsl.Generation.Place
import Lsl.Library
import Lsl.Parsing.Expression
import Lsl.Settings
import Lsl.Token.Stream

/-!
Library constants that are written out as their values. The value of a list is read as an
expression and built element by element.
-/

set_option autoImplicit false

namespace Lsl

def unsupportedElement (expr : Expr) : String :=
  "unsupported list constant element at column " ++ toString expr.span.start.column

/-- A number in the value of a constant, with the minus signs in front of it. -/
def numberText : Expr → Except String String
  | .integer _ raw => .ok raw
  | .hex _ raw => .ok raw
  | .float _ raw => .ok (Literal.formatFloat raw)
  | .prefixed _ .negate operand => (numberText operand).map ("-" ++ ·)
  | expr => .error (unsupportedElement expr)

def construction (type : ValueType) (content : String) : String :=
  "new " ++ type.targetName false ++ "(" ++ content ++ ")"

def numbersText (parts : List Expr) : Except String String := do
  return ", ".intercalate (← parts.mapM numberText)

/-- A number is a float if it is written with a point. -/
def numberConstruction (expr : Expr) : Except String String := do
  let text ← numberText expr
  return construction (if text.toList.contains '.' then .float else .integer) text

def elementText (keysAreStrings : Bool) : Expr → Except String String
  | .string _ raw => .ok (construction .string (quotedLiteral raw))
  | .cast info .key operand =>
    match operand with
    | .string _ raw =>
      .ok ("new " ++ ValueType.key.targetName keysAreStrings ++ "(" ++ quotedLiteral raw ++ ")")
    | _ => .error (unsupportedElement (.cast info .key operand))
  | .integer info raw => numberConstruction (.integer info raw)
  | .hex info raw => numberConstruction (.hex info raw)
  | .prefixed info operator operand => numberConstruction (.prefixed info operator operand)
  | .float info raw => do return construction .float (← numberText (.float info raw))
  | .vector _ x y z => do return construction .vector (← numbersText [x, y, z])
  | .rotation _ x y z s => do return construction .rotation (← numbersText [x, y, z, s])
  | expr => .error (unsupportedElement expr)

/-- The elements of a list as a constant gives them. -/
def constantElements (literal : String) : Except String (List Expr) :=
  match lexicalErrors literal with
  | error :: _ =>
    .error ("list constant " ++ literal ++ " does not tokenize: " ++ error.message)
  | [] =>
    match parseExpression (tokenize literal) with
    | .error error =>
      .error ("list constant " ++ literal ++ " does not parse: " ++ error.message)
    | .ok (.list _ _ elements) => .ok elements
    | .ok _ => .error (literal ++ " is not a list")

def listText (keysAreStrings : Bool) (literal : String) : Except String String := do
  let elements ← (← constantElements literal).mapM (elementText keysAreStrings)
  return construction .list (", ".intercalate elements)

/-- The value of a constant in place of its name. -/
def expandedText (settings : Settings) (constant : LibraryConstant) : Except String String :=
  let signature := constant.signature
  match signature.type with
  | .string => .ok (construction .string constant.literal)
  | .key =>
    let asString := settings.keysAreStrings || settings.expandedKeysAreStrings
    .ok ("new " ++ ValueType.key.targetName asString ++ "(" ++ constant.literal ++ ")")
  | .list =>
    listText (settings.keysAreStrings || settings.expandedElementsAreStrings) constant.literal
  | .void => .error ("library constant " ++ Text.quote signature.name ++ " has no type")
  | type => .ok (construction type signature.value)

def constantCode (settings : Settings) (constant : LibraryConstant) : Code :=
  if constant.metadata.isExpanded then
    match expandedText settings constant with
    | .ok text => .plain text
    | .error reason => .fault reason
  else .plain constant.name

end Lsl
