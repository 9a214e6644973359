import Lsl.Checking.View

/-!
Types and bindings of expressions. An expression is left without a type exactly when something in
it is wrong and no type can be told; what stands around it then reports nothing further about it.
-/

set_option autoImplicit false

namespace Lsl

def checkReference (view : View) (info : ExprInfo) (name : String) : Checked Expr :=
  match view.resolve name with
  | .ok found => pure (.reference { info with type := some found.type } name found.binding)
  | .error problem => (Expr.reference info name .unresolved).blame problem

/-- Checks that an expression can be assigned to. Library constants are blamed; for any other
expression the answer alone says that it cannot. -/
def checkTarget : Expr → Checked (Expr × Bool)
  | .reference info name .constant => do
    let blamed ← (Expr.reference info name .constant).blame (.constantAssigned name)
    return (blamed, false)
  | .reference info name binding => pure (.reference info name binding, true)
  | .component info part target => do
    let (target, writable) ← checkTarget target
    return (.component info part target, writable)
  | expr => pure (expr, false)

/-- Checks arguments against the types they are passed as. -/
def fitArguments (function : String) (place : Nat) :
    List Expr → List ValueType → Checked (List Expr)
  | argument :: arguments, expected :: types => do
    let argument ← argument.demand (·.convertsTo expected)
      (.argumentType function place expected ·)
    let arguments ← fitArguments function (place + 1) arguments types
    return argument :: arguments
  | arguments, _ => pure arguments

/-- Checks the number of arguments, and then each of them. -/
def checkArguments (info : ExprInfo) (name : String) (inner : Span) (arguments : List Expr)
    (target : CallTarget) (parameters : List ValueType) : Checked Expr :=
  if arguments.length ≠ parameters.length then
    (Expr.call info name inner arguments target).blame
      (.argumentCount name parameters.length arguments.length)
  else do
    let arguments ← fitArguments name 1 arguments parameters
    return .call info name inner arguments target

/-- The types of expressions, if all of them are known. -/
def knownTypes? : List Expr → Option (List ValueType)
  | [] => some []
  | expr :: rest =>
    match expr.type?, knownTypes? rest with
    | some type, some types => some (type :: types)
    | _, _ => none

/-- No overload takes the arguments. If there is only one, it is said what is wrong with them. -/
def checkUnresolvedCall (view : View) (info : ExprInfo) (name : String) (inner : Span)
    (arguments : List Expr) (types : List ValueType) : Checked Expr :=
  let refused := (Expr.call info name inner arguments .unresolved).blame (.noOverload name types)
  match view.library.overloads name with
  | [only] =>
    if only.signature.isVariadic then refused
    else
      checkArguments { info with type := some only.signature.returns } name inner arguments
        .unresolved (only.signature.parameters.map (·.type))
  | _ => refused

def checkLibraryCall (view : View) (info : ExprInfo) (name : String) (inner : Span)
    (arguments : List Expr) (types : List ValueType) : Checked Expr :=
  match view.library.resolve? name types with
  | none => checkUnresolvedCall view info name inner arguments types
  | some overload => do
    if overload.metadata.isDeprecated then report info.span (.deprecatedFunction name)
    return .call { info with type := some overload.signature.returns } name inner arguments
      (.library overload.signature)

/-- A call whose arguments have been checked. Functions of the script come before those of the
library. -/
def checkCall (view : View) (info : ExprInfo) (name : String) (inner : Span)
    (arguments : List Expr) : Checked Expr :=
  match view.function? name with
  | some header =>
    checkArguments { info with type := some header.returns } name inner arguments
      (.script header.start) header.parameters
  | none =>
    let unresolved := Expr.call info name inner arguments .unresolved
    if !view.library.hasFunction name then unresolved.blame (.undeclaredFunction name)
    else
      match knownTypes? arguments with
      | none => pure unresolved
      | some types => checkLibraryCall view info name inner arguments types

def operandProblem (operator : BinaryOperator) (left right : ValueType) : Problem :=
  if operator = .assign then .typeMismatch left right
  else .binaryOperands left operator.symbol right

def typeOperation (info : ExprInfo) (operator : BinaryOperator) (left right : Expr) :
    Checked Expr :=
  match left.type?, right.type? with
  | some leftType, some rightType =>
    let result :=
      if operator.isAssignment then operator.assignedResult? leftType rightType
      else operator.result? leftType rightType
    let node := Expr.binary { info with type := result } operator left right
    if result.isSome then pure node else node.blame (operandProblem operator leftType rightType)
  | _, _ => pure (.binary info operator left right)

def checkBinary (info : ExprInfo) (operator : BinaryOperator) (left right : Expr) :
    Checked Expr :=
  if operator.isAssignment && left.type?.isSome then do
    let (left, writable) ← checkTarget left
    if writable then typeOperation info operator left right
    else return .binary info operator left right
  else typeOperation info operator left right

def typePrefixed (info : ExprInfo) (operator : PrefixOperator) (operand : Expr)
    (type : ValueType) : Checked Expr :=
  let result := operator.result? type
  let node := Expr.prefixed { info with type := result } operator operand
  if result.isSome then pure node else node.blame (.prefixOperand operator.symbol type)

def checkPrefixed (info : ExprInfo) (operator : PrefixOperator) (operand : Expr) :
    Checked Expr :=
  match operand.type? with
  | none => pure (.prefixed info operator operand)
  | some type =>
    if operator.isStep then do
      let (operand, writable) ← checkTarget operand
      if writable then typePrefixed info operator operand type
      else
        let node := Expr.prefixed info operator operand
        if operand.hasErrors then return node
        else node.blame (.prefixOperand operator.symbol type)
    else typePrefixed info operator operand type

def checkPostfixed (info : ExprInfo) (operator : PostfixOperator) (operand : Expr) :
    Checked Expr := do
  let (operand, writable) ← checkTarget operand
  match writable, operand.type? with
  | true, some type =>
    let result := operator.result? type
    let node := Expr.postfixed { info with type := result } operator operand
    if result.isSome then return node
    else node.blame (.postfixOperand operator.symbol type)
  | _, _ => return .postfixed info operator operand

/-- A cast has the type it casts to even when the operand cannot be cast. -/
def checkCast (info : ExprInfo) (target : ValueType) (operand : Expr) : Checked Expr :=
  match operand.type? with
  | none => pure (.cast info target operand)
  | some source =>
    let node := Expr.cast { info with type := some target } target operand
    if source.castsTo target then pure node else node.blame (.impossibleCast source target)

def checkComponent (info : ExprInfo) (part : Component) (target : Expr) : Checked Expr :=
  match target.type? with
  | none => pure (.component info part target)
  | some type =>
    if part.existsOn type then
      pure (.component { info with type := some .float } part target)
    else (Expr.component info part target).blame (.missingComponent part.name type)

/-- Parts of vectors and rotations are floats. -/
def demandFloat (expr : Expr) : Checked Expr :=
  expr.demand (·.convertsTo .float) (.typeMismatch .float ·)

def demandElement (expr : Expr) : Checked Expr :=
  expr.demand ValueType.isListElement .notListElement

mutual

def checkExpr (view : View) : Expr → Checked Expr
  | .integer info raw => pure (.integer { info with type := some .integer } raw)
  | .hex info raw => pure (.hex { info with type := some .integer } raw)
  | .float info raw => pure (.float { info with type := some .float } raw)
  | .string info raw => pure (.string { info with type := some .string } raw)
  | .vector info x y z => do
    let x ← checkExpr view x >>= demandFloat
    let y ← checkExpr view y >>= demandFloat
    let z ← checkExpr view z >>= demandFloat
    return .vector { info with type := some .vector } x y z
  | .rotation info x y z s => do
    let x ← checkExpr view x >>= demandFloat
    let y ← checkExpr view y >>= demandFloat
    let z ← checkExpr view z >>= demandFloat
    let s ← checkExpr view s >>= demandFloat
    return .rotation { info with type := some .rotation } x y z s
  | .list info inner elements => do
    let elements ← checkExprs view demandElement elements
    return .list { info with type := some .list } inner elements
  | .reference info name _ => checkReference view info name
  | .call info name inner arguments _ => do
    let arguments ← checkExprs view pure arguments
    checkCall view info name inner arguments
  | .binary info operator left right => do
    let left ← checkExpr view left
    let right ← checkExpr view right
    checkBinary info operator left right
  | .prefixed info operator operand => do
    checkPrefixed info operator (← checkExpr view operand)
  | .postfixed info operator operand => do
    checkPostfixed info operator (← checkExpr view operand)
  | .cast info target operand => do
    checkCast info target (← checkExpr view operand)
  | .grouped info inner => do
    let inner ← checkExpr view inner
    return .grouped { info with type := inner.type? } inner
  | .component info part target => do
    checkComponent info part (← checkExpr view target)

def checkExprs (view : View) (demand : Expr → Checked Expr) : List Expr → Checked (List Expr)
  | [] => pure []
  | expr :: rest => do
    let expr ← checkExpr view expr >>= demand
    let rest ← checkExprs view demand rest
    return expr :: rest

end

def checkCondition (view : View) (condition : Expr) : Checked Expr := do
  (← checkExpr view condition).demand (· != .void) fun _ => .voidCondition

def checkInitializer (view : View) (type : ValueType) (initializer : Expr) : Checked Expr := do
  (← checkExpr view initializer).demand (·.convertsTo type) (.typeMismatch type ·)

def checkOption {α : Type} (check : α → Checked α) : Option α → Checked (Option α)
  | some value => do return some (← check value)
  | none => pure none

def checkExprList (view : View) (list : ExprList) : Checked ExprList := do
  return { list with members := ← checkExprs view pure list.members }

end Lsl
