import Lsl.Checking.Script
import Lsl.Diagnostic.Grammar
import Lsl.Parsing.Script
import Lsl.Token.Stream

/-!
The validator. It goes through a script with one state: the tables of what is declared, the scopes
around the statement at hand, the labels of the body at hand, every use that was met and all that was
reported. Names and calls are looked up in that state, and a use is recorded when it is bound. Each
body leaves the state as the next one needs it.
-/

set_option autoImplicit false

namespace Lsl

/-- The variables that can be named since a scope was entered, the last one first, and the local
ones among them in order, with their places. -/
structure Environment where
  visible : List Visible := []
  declarations : List (String × Span) := []
deriving DecidableEq, Inhabited, Repr

inductive BodyContext where
  | none
  | globalInitializer
  | body (owner : Owner)
deriving DecidableEq, Inhabited, Repr

structure Validator where
  library : Library
  functions : List FunctionHeader := []
  states : List (String × Nat) := []
  globals : List Visible := []
  globalNames : List String := []
  /-- The scopes of the body at hand, the innermost first. -/
  environments : List Environment := []
  labels : List LabelPlace := []
  context : BodyContext := .none
  uses : List Use := []
  reports : List Diagnostic := []
deriving Inhabited

namespace Validator

/-- What can be named. Only an initializer of a global can come too early for another one. -/
def view (state : Validator) : View where
  library := state.library
  functions := state.functions
  globals := state.globals
  locals := state.environments.flatMap (·.visible)
  forthcoming := if state.context = .globalInitializer then state.globalNames else []

def label? (state : Validator) (name : String) : Option LabelPlace :=
  state.labels.find? (·.name == name)

def enter (state : Validator) (environment : Environment) : Validator :=
  { state with environments := environment :: state.environments }

/-- Declares a local variable in the innermost scope. -/
def declare (state : Validator) (found : Visible) (span : Span) : Validator :=
  match state.environments with
  | [] => state
  | environment :: environments =>
    let innermost : Environment :=
      { visible := found :: environment.visible
        declarations := environment.declarations ++ [(found.name, span)] }
    { state with environments := innermost :: environments }

end Validator

abbrev Validation := StateM Validator

def tell {α : Type} (checked : Checked α) : Validation α := do
  modify fun state => { state with reports := state.reports ++ checked.reports }
  return checked.value

/-- Records that a declaration is used at a place, if what stands there is bound to one. -/
def addUse (declaration? : Option Nat) (span : Span) : Validation Unit :=
  modify fun state => { state with uses := state.uses ++ Use.ofBound span declaration? }

section Expressions

def validateReference (info : ExprInfo) (name : String) : Validation Expr := do
  match (← get).view.resolve name with
  | .ok found =>
    addUse found.binding.declaration? info.span
    return .reference { info with type := some found.type } name found.binding
  | .error problem => tell ((Expr.reference info name .unresolved).blame problem)

def validateCall (info : ExprInfo) (name : String) (inner : Span) (arguments : List Expr) :
    Validation Expr := do
  let view := (← get).view
  addUse ((view.function? name).map (·.start)) info.span
  tell (checkCall view info name inner arguments)

mutual

def validateExpr : Expr → Validation Expr
  | .integer info raw => return .integer { info with type := some .integer } raw
  | .hex info raw => return .hex { info with type := some .integer } raw
  | .float info raw => return .float { info with type := some .float } raw
  | .string info raw => return .string { info with type := some .string } raw
  | .vector info x y z => do
    let x ← validateExpr x >>= fun x => tell (demandFloat x)
    let y ← validateExpr y >>= fun y => tell (demandFloat y)
    let z ← validateExpr z >>= fun z => tell (demandFloat z)
    return .vector { info with type := some .vector } x y z
  | .rotation info x y z s => do
    let x ← validateExpr x >>= fun x => tell (demandFloat x)
    let y ← validateExpr y >>= fun y => tell (demandFloat y)
    let z ← validateExpr z >>= fun z => tell (demandFloat z)
    let s ← validateExpr s >>= fun s => tell (demandFloat s)
    return .rotation { info with type := some .rotation } x y z s
  | .list info inner elements => do
    let elements ← validateExprs demandElement elements
    return .list { info with type := some .list } inner elements
  | .reference info name _ => validateReference info name
  | .call info name inner arguments _ => do
    let arguments ← validateExprs pure arguments
    validateCall info name inner arguments
  | .binary info operator left right => do
    let left ← validateExpr left
    let right ← validateExpr right
    tell (checkBinary info operator left right)
  | .prefixed info operator operand => do
    let operand ← validateExpr operand
    tell (checkPrefixed info operator operand)
  | .postfixed info operator operand => do
    let operand ← validateExpr operand
    tell (checkPostfixed info operator operand)
  | .cast info target operand => do
    let operand ← validateExpr operand
    tell (checkCast info target operand)
  | .grouped info inner => do
    let inner ← validateExpr inner
    return .grouped { info with type := inner.type? } inner
  | .component info part target => do
    let target ← validateExpr target
    tell (checkComponent info part target)

def validateExprs (demand : Expr → Checked Expr) : List Expr → Validation (List Expr)
  | [] => return []
  | expr :: rest => do
    let expr ← validateExpr expr >>= fun expr => tell (demand expr)
    let rest ← validateExprs demand rest
    return expr :: rest

end

def validateCondition (condition : Expr) : Validation Expr := do
  let condition ← validateExpr condition
  tell (condition.demand (· != .void) fun _ => .voidCondition)

def validateInitializer (type : ValueType) (initializer : Expr) : Validation Expr := do
  let initializer ← validateExpr initializer
  tell (initializer.demand (·.convertsTo type) (.typeMismatch type ·))

def validateOption {α : Type} (validate : α → Validation α) : Option α → Validation (Option α)
  | some value => do return some (← validate value)
  | none => return none

def validateExprList (list : ExprList) : Validation ExprList := do
  return { list with members := ← validateExprs pure list.members }

end Expressions

section Statements

/-- The scopes are those around the statement, the innermost first. -/
def validateDeclaration (scopes : List Nat) (info : StmtInfo) (decl : Variable) :
    Validation Stmt := do
  let initializer ← validateOption (validateInitializer decl.type) decl.initializer
  let decl := { decl with initializer }
  match declarationProblem? (← get).view decl.name with
  | some problem =>
    let info ← tell (info.blame problem)
    return .declare info decl
  | none =>
    let binding := Binding.inScope info.span.start.offset (scopes.headD 0)
    modify (·.declare ⟨decl.name, decl.type, binding⟩ info.span)
    return .declare info decl

def validateReturn (info : StmtInfo) (value : Option Expr) : Validation Stmt := do
  match (← get).context, value with
  | .body (.handler event), some value =>
    let value ← validateExpr value
    tell (report info.span (.valueFromHandler event))
    return .giveBack info (some value)
  | .body (.function name .void), some value =>
    let value ← validateExpr value
    let info ← tell (info.blame (.valueFromVoidFunction name))
    return .giveBack info (some value)
  | .body (.function _ returns), some value =>
    let value ← validateExpr value
    let value ← tell (value.demand (·.convertsTo returns) (.returnMismatch returns ·))
    return .giveBack info (some value)
  | .body (.function name returns), none =>
    if returns = .void then return .giveBack info none
    else
      let info ← tell (info.blame (.missingReturnValue name))
      return .giveBack info none
  | _, value => return .giveBack info value

/-- A jump uses its label even if it may not go there. -/
def validateJump (scopes : List Nat) (info : StmtInfo) (name : String) : Validation Stmt := do
  match (← get).label? name with
  | none =>
    let info ← tell (info.blame (.undeclaredLabel name))
    return .jump info name none
  | some label =>
    let target : JumpTarget := ⟨label.start, scopes.contains label.scope⟩
    let checked ← tell (if target.inReach then pure info else info.blame (.jumpIntoBlock name))
    addUse (some label.start) info.span
    return .jump checked name (some target)

def remarkStateChange (span : Span) : BodyContext → Checked Unit
  | .body (.function owner _) => report span (.stateChangeInFunction owner)
  | _ => pure ()

def validateStateChange (info : StmtInfo) (name : String) : Validation Stmt := do
  let state ← get
  match state.states.lookup name with
  | none =>
    let info ← tell (info.blame (.undeclaredState name))
    return .changeState info name none
  | some start =>
    addUse (some start) info.span
    tell (remarkStateChange info.span state.context)
    return .changeState info name (some start)

def validateLabel (info : StmtInfo) (name : String) : Validation Stmt := do
  let repeated := ((← get).label? name).any (·.start ≠ info.span.start.offset)
  return .label { info with faulty := info.faulty || repeated } name

/-- Leaves the innermost scope. What is declared in it and used nowhere so far is reported. -/
def leaveScope : Validation Unit := do
  let state ← get
  match state.environments with
  | [] => return
  | environment :: environments =>
    set { state with environments }
    let unused := environment.declarations.filter fun (_, span) =>
      !Use.isUsed state.uses span.start.offset
    tell ⟨(), unused.map fun (name, span) => ⟨.unusedVariable name, span⟩⟩

def inScope (statements : Validation (List Stmt)) : Validation (List Stmt) := do
  modify (·.enter {})
  let body ← statements
  leaveScope
  return body

mutual

def validateStmt (scopes : List Nat) : Stmt → Validation Stmt
  | .block scope body => do
    let body ← inScope (validateStmts (scope.id :: scopes) body)
    return .block scope body
  | .declare info decl => validateDeclaration scopes info decl
  | .perform info value => do return .perform info (← validateExpr value)
  | .giveBack info value => validateReturn info value
  | .jump info name _ => validateJump scopes info name
  | .label info name => validateLabel info name
  | .changeState info name _ => validateStateChange info name
  | .branch info first condition scope body rest => do
    let condition ← validateCondition condition
    let body ← inScope (validateStmts (scope.id :: scopes) body)
    let rest ← validateAlternatives scopes rest
    return .branch info first condition scope body rest
  | .whileLoop info condition scope body => do
    let condition ← validateCondition condition
    let body ← inScope (validateStmts (scope.id :: scopes) body)
    return .whileLoop info condition scope body
  | .doLoop info scope body condition => do
    let body ← inScope (validateStmts (scope.id :: scopes) body)
    let condition ← validateCondition condition
    return .doLoop info scope body condition
  | .forLoop info init condition afterthought scope body => do
    let init ← validateOption validateExprList init
    let condition ← validateOption validateCondition condition
    let afterthought ← validateOption validateExprList afterthought
    let body ← inScope (validateStmts (scope.id :: scopes) body)
    return .forLoop info init condition afterthought scope body
  | .empty info => return .empty info
  | .broken span => return .broken span

def validateStmts (scopes : List Nat) : List Stmt → Validation (List Stmt)
  | [] => return []
  | stmt :: rest => do
    let stmt ← validateStmt scopes stmt
    let rest ← validateStmts scopes rest
    return stmt :: rest

def validateAlternatives (scopes : List Nat) : Alternatives → Validation Alternatives
  | .done => return .done
  | .elseIf span condition scope body rest => do
    let condition ← validateCondition condition
    let body ← inScope (validateStmts (scope.id :: scopes) body)
    let rest ← validateAlternatives scopes rest
    return .elseIf span condition scope body rest
  | .otherwise span scope body => do
    let body ← inScope (validateStmts (scope.id :: scopes) body)
    return .otherwise span scope body

end

end Statements

section Bodies

def validateBody (owner : Owner) (parameters : ParameterList) (scope : ScopeInfo)
    (body : List Stmt) : Validation (ParameterList × List Stmt) := do
  let labels ← tell (declareLabels [] (Stmt.listLabels scope.id body))
  modify ({ · with context := .body owner, labels })
  let (members, visible) ← tell (declareParameters (← get).library [] parameters.members)
  modify (·.enter { visible })
  let body ← inScope (validateStmts [scope.id] body)
  modify ({ · with environments := [] })
  let (body, regions) := Stmt.listSettle ((← get).uses.map (·.declaration)) {} body
  tell (regions.forM (report · .deadCode))
  modify ({ · with labels := [], context := .none })
  return ({ parameters with members }, body)

def validateFunction (decl : FunctionDecl) : Validation FunctionDecl := do
  let owner := Owner.function decl.name decl.returns
  let (parameters, body) ← validateBody owner decl.parameters decl.scope decl.body
  let complete := decl.returns == .void || Stmt.anyReturns body
  let faulty ← tell (reportAt decl.span
    (if complete then none else some (.missingReturn decl.name)))
  return { decl with parameters, body, faulty := decl.faulty || faulty }

def validateHandler (decl : HandlerDecl) : Validation HandlerDecl := do
  let faulty ← tell (reportAt decl.span (handlerProblem? (← get).library decl))
  let (parameters, body) ←
    validateBody (.handler decl.name) decl.parameters decl.scope decl.body
  return { decl with parameters, body, faulty := decl.faulty || faulty }

/-- Validates the handlers of a state. A second handler of one event is not looked into. -/
def validateMembers (state : String) (seen : List String) :
    List StateMember → Validation (List StateMember)
  | [] => return []
  | .broken span :: rest => do
    let rest ← validateMembers state seen rest
    return .broken span :: rest
  | .handler decl :: rest => do
    if seen.contains decl.name then
      tell (report decl.span (.repeatedHandler decl.name state))
      let rest ← validateMembers state seen rest
      return .handler { decl with faulty := true } :: rest
    else
      let decl ← validateHandler decl
      let rest ← validateMembers state (decl.name :: seen) rest
      return .handler decl :: rest

def validateState (decl : StateDecl) : Validation StateDecl := do
  if decl.members.isEmpty then
    tell (report decl.span (.stateWithoutHandlers decl.name))
    return { decl with faulty := true }
  else
    let members ← validateMembers decl.name [] decl.members
    return { decl with members }

end Bodies

section Scripts

/-- Enters functions into the table, the first of each name only. -/
def registerFunctions (functions : List FunctionDecl) : Validation (List FunctionDecl) := do
  let state ← get
  let (decls, functions) ← tell (declareFunctions state.library state.functions functions)
  modify ({ · with functions })
  return decls

def registerStates (states : List StateDecl) : Validation (List StateDecl) := do
  let (decls, states) ← tell (declareStates (← get).states states)
  modify ({ · with states })
  return decls

def validateGlobalInitializer (type : ValueType) (name : String) (initializer : Expr) :
    Validation Expr := do
  let initializer ← validateInitializer type initializer
  tell (if initializer.isConstant then pure initializer
    else initializer.blame (.initializerNotConstant name))

/-- Validates a global, which those behind it can name from then on. -/
def validateGlobal (global : GlobalDecl) : Validation GlobalDecl := do
  let name := global.decl.name
  modify ({ · with context := .globalInitializer })
  let initializer ←
    validateOption (validateGlobalInitializer global.decl.type name) global.decl.initializer
  modify ({ · with context := .none })
  let state ← get
  let problem? :=
    if (state.library.constant? name).isSome then some (Problem.libraryConstantRedefined name)
    else if state.globals.any (·.name == name) then some (.repeatedVariable name)
    else none
  let faulty ← tell (reportAt global.span problem?)
  let known : Visible := ⟨name, global.decl.type, .global global.start⟩
  modify fun state => if faulty then state else { state with globals := state.globals ++ [known] }
  let decl := { global.decl with initializer }
  return { global with decl, faulty := global.faulty || faulty }

/-- The default state, whose absence is reported at the end of the script. -/
def validateDefaultState (span : Span) : Option StateDecl → Validation (Option StateDecl)
  | some decl => do return some (← validateState decl)
  | none => do
    tell (report (.point span.stop) .missingDefaultState)
    return none

/-- Declares what every body can name, before any of them is looked into. -/
def validateHead (script : Script) :
    Validation (List FunctionDecl × List StateDecl × List StateDecl × List GlobalDecl) := do
  let functions ← registerFunctions script.functions
  let defaultStates ← registerStates script.defaultState.toList
  let states ← registerStates script.states
  modify ({ · with globalNames := script.globals.map (·.decl.name) })
  let globals ← script.globals.mapM validateGlobal
  return (functions, defaultStates, states, globals)

def validateScript (script : Script) : Validation Script := do
  let (functions, defaultStates, states, globals) ← validateHead script
  let functions ← functions.mapM validateFunction
  let defaultState ← validateDefaultState script.span defaultStates.head?
  let states ← states.mapM validateState
  return { script with globals, functions, defaultState, states, uses := (← get).uses }

end Scripts

def validate (library : Library) (script : Script) : Checked Script :=
  let (script, state) := (validateScript script).run { library }
  ⟨script.concluded state.reports, state.reports⟩

def check (library : Library) (script : Script) : Checked Script :=
  if script.hasErrors then ⟨script, []⟩ else validate library script

/-- The errors of a source, lexical ones and those of the grammar, in the order of their places. -/
def syntaxErrors (source : String) : List SyntaxError :=
  (lexicalErrors source ++ (parse (tokenize source)).2).mergeSort fun first second =>
    first.span.start.offset ≤ second.span.start.offset

/-- Reads and checks a source. What is wrong with its text comes first and hides all else. -/
def checkSource (library : Library) (source : String) : Checked Script :=
  let script := (parse (tokenize source)).1
  let errors := syntaxErrors source
  if errors.isEmpty then validate library script
  else
    let reports := errors.map Diagnostic.ofSyntaxError
    ⟨script.concluded reports, reports⟩

end Lsl
