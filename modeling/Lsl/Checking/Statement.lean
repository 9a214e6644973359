import Lsl.Checking.Expression
import Lsl.Checking.Reachability

/-!
The statements of functions and event handlers. A declaration can be seen by the statements behind
it in its scope and in the scopes inside; a label can be seen from everywhere in the body.
-/

set_option autoImplicit false

namespace Lsl

inductive Owner where
  | function (name : String) (returns : ValueType)
  | handler (event : String)
deriving DecidableEq, Inhabited, Repr

structure LabelPlace where
  name : String
  span : Span
  scope : Nat
deriving DecidableEq, Inhabited, Repr

def LabelPlace.start (label : LabelPlace) : Nat := label.span.start.offset

mutual

def Stmt.labels (scope : Nat) : Stmt → List LabelPlace
  | .label info name => [⟨name, info.span, scope⟩]
  | .block inner body => Stmt.listLabels inner.id body
  | .branch _ _ _ inner body rest => Stmt.listLabels inner.id body ++ rest.labels
  | .whileLoop _ _ inner body => Stmt.listLabels inner.id body
  | .doLoop _ inner body _ => Stmt.listLabels inner.id body
  | .forLoop _ _ _ _ inner body => Stmt.listLabels inner.id body
  | _ => []

/-- The labels among the statements of a scope and inside them. -/
def Stmt.listLabels (scope : Nat) : List Stmt → List LabelPlace
  | [] => []
  | stmt :: rest => stmt.labels scope ++ Stmt.listLabels scope rest

def Alternatives.labels : Alternatives → List LabelPlace
  | .done => []
  | .elseIf _ _ inner body rest => Stmt.listLabels inner.id body ++ rest.labels
  | .otherwise _ inner body => Stmt.listLabels inner.id body

end

/-- Adds labels to those declared, the first of each name only. -/
def declareLabels (declared : List LabelPlace) : List LabelPlace → Checked (List LabelPlace)
  | [] => pure declared
  | label :: rest =>
    if declared.any (·.name == label.name) then do
      report label.span (.repeatedLabel label.name)
      declareLabels declared rest
    else declareLabels (declared ++ [label]) rest

/-- What a statement can refer to and where it stands. The scopes are those around it, the
innermost first. -/
structure Frame where
  view : View
  states : List (String × Nat)
  labels : List LabelPlace
  owner : Owner
  scopes : List Nat
deriving Inhabited

namespace Frame

def enter (frame : Frame) (scope : ScopeInfo) : Frame :=
  { frame with scopes := scope.id :: frame.scopes }

def label? (frame : Frame) (name : String) : Option LabelPlace :=
  frame.labels.find? (·.name == name)

/-- What the statements behind a checked statement see: a declaration adds its variable, unless it
was refused. -/
def behind (frame : Frame) : Stmt → Frame
  | .declare info decl =>
    if info.faulty then frame
    else
      let binding := Binding.inScope info.span.start.offset (frame.scopes.headD 0)
      { frame with view := frame.view.declareLocal ⟨decl.name, decl.type, binding⟩ }
  | _ => frame

end Frame

def StmtInfo.blame (info : StmtInfo) (problem : Problem) : Checked StmtInfo :=
  ⟨{ info with faulty := true }, [⟨problem, info.span⟩]⟩

/-- Why a variable of the name cannot be declared. No two locals of one name are ever visible
together. -/
def declarationProblem? (view : View) (name : String) : Option Problem :=
  if (view.library.constant? name).isSome then some (.libraryConstantRedefined name)
  else if view.locals.any (·.name == name) then some (.repeatedVariable name)
  else none

def checkDeclaration (frame : Frame) (info : StmtInfo) (decl : Variable) : Checked Stmt := do
  let initializer ← checkOption (checkInitializer frame.view decl.type) decl.initializer
  let decl := { decl with initializer }
  match declarationProblem? frame.view decl.name with
  | some problem => return .declare (← info.blame problem) decl
  | none => return .declare info decl

def checkReturn (frame : Frame) (info : StmtInfo) (value : Option Expr) : Checked Stmt := do
  let value ← checkOption (checkExpr frame.view) value
  match frame.owner, value with
  | .handler event, some value =>
    report info.span (.valueFromHandler event)
    return .giveBack info (some value)
  | .function name .void, some value =>
    return .giveBack (← info.blame (.valueFromVoidFunction name)) (some value)
  | .function _ returns, some value =>
    let value ← value.demand (·.convertsTo returns) (.returnMismatch returns ·)
    return .giveBack info (some value)
  | .function name returns, none =>
    if returns = .void then return .giveBack info none
    else return .giveBack (← info.blame (.missingReturnValue name)) none
  | .handler _, none => return .giveBack info none

/-- A jump may leave scopes but not enter one. -/
def checkJump (frame : Frame) (info : StmtInfo) (name : String) : Checked Stmt := do
  match frame.label? name with
  | none => return .jump (← info.blame (.undeclaredLabel name)) name none
  | some label =>
    let target : JumpTarget := ⟨label.start, frame.scopes.contains label.scope⟩
    if target.inReach then return .jump info name (some target)
    else return .jump (← info.blame (.jumpIntoBlock name)) name (some target)

def checkStateChange (frame : Frame) (info : StmtInfo) (name : String) : Checked Stmt := do
  match frame.states.lookup name with
  | none => return .changeState (← info.blame (.undeclaredState name)) name none
  | some state =>
    if let .function owner _ := frame.owner then
      report info.span (.stateChangeInFunction owner)
    return .changeState info name (some state)

def checkLabel (frame : Frame) (info : StmtInfo) (name : String) : Stmt :=
  let repeated := (frame.label? name).any (·.start ≠ info.span.start.offset)
  .label { info with faulty := info.faulty || repeated } name

def Stmt.declared? : Stmt → Option (String × Span)
  | .declare info decl => if info.faulty then none else some (decl.name, info.span)
  | _ => none

/-- The variables declared among the statements of a scope that nothing uses. -/
def unusedVariables (body : List Stmt) : List (String × Span) :=
  let uses := Stmt.listUses body
  (body.filterMap Stmt.declared?).filter fun (_, span) => !Use.isUsed uses span.start.offset

/-- Closes a scope, at whose end unused variables are reported. -/
def closeScope (body : List Stmt) : Checked (List Stmt) :=
  ⟨body, (unusedVariables body).map fun (name, span) => ⟨.unusedVariable name, span⟩⟩

mutual

def checkStmt (frame : Frame) : Stmt → Checked Stmt
  | .block scope body => do
    return .block scope (← checkStmts (frame.enter scope) body >>= closeScope)
  | .declare info decl => checkDeclaration frame info decl
  | .perform info value => do return .perform info (← checkExpr frame.view value)
  | .giveBack info value => checkReturn frame info value
  | .jump info name _ => checkJump frame info name
  | .label info name => pure (checkLabel frame info name)
  | .changeState info name _ => checkStateChange frame info name
  | .branch info first condition scope body rest => do
    let condition ← checkCondition frame.view condition
    let body ← checkStmts (frame.enter scope) body >>= closeScope
    let rest ← checkAlternatives frame rest
    return .branch info first condition scope body rest
  | .whileLoop info condition scope body => do
    let condition ← checkCondition frame.view condition
    let body ← checkStmts (frame.enter scope) body >>= closeScope
    return .whileLoop info condition scope body
  | .doLoop info scope body condition => do
    let body ← checkStmts (frame.enter scope) body >>= closeScope
    let condition ← checkCondition frame.view condition
    return .doLoop info scope body condition
  | .forLoop info init condition afterthought scope body => do
    let init ← checkOption (checkExprList frame.view) init
    let condition ← checkOption (checkCondition frame.view) condition
    let afterthought ← checkOption (checkExprList frame.view) afterthought
    let body ← checkStmts (frame.enter scope) body >>= closeScope
    return .forLoop info init condition afterthought scope body
  | .empty info => pure (.empty info)
  | .broken span => pure (.broken span)

def checkStmts (frame : Frame) : List Stmt → Checked (List Stmt)
  | [] => pure []
  | stmt :: rest => do
    let stmt ← checkStmt frame stmt
    let rest ← checkStmts (frame.behind stmt) rest
    return stmt :: rest

def checkAlternatives (frame : Frame) : Alternatives → Checked Alternatives
  | .done => pure .done
  | .elseIf span condition scope body rest => do
    let condition ← checkCondition frame.view condition
    let body ← checkStmts (frame.enter scope) body >>= closeScope
    let rest ← checkAlternatives frame rest
    return .elseIf span condition scope body rest
  | .otherwise span scope body => do
    let body ← checkStmts (frame.enter scope) body >>= closeScope
    return .otherwise span scope body

end

end Lsl
