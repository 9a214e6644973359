import Lsl.Syntax.Script

/-!
The nodes of a script in the order of their first characters, a node before the nodes inside it.
Each occurrence carries the nodes around it.
-/

set_option autoImplicit false

namespace Lsl

/-- What a list of expressions is for. -/
inductive ListRole where
  | arguments
  | elements
  | loopInit
  | loopAfterthought
deriving DecidableEq, Inhabited, Repr

inductive Node where
  | script (script : Script)
  | global (decl : GlobalDecl)
  | function (decl : FunctionDecl)
  | parameters (list : ParameterList)
  | parameter (decl : ParameterDecl)
  | state (decl : StateDecl)
  | handler (decl : HandlerDecl)
  | scope (scope : ScopeInfo) (body : List Stmt)
  | stmt (stmt : Stmt)
  | ifBranch (span : Span) (condition : Expr) (scope : ScopeInfo) (body : List Stmt)
  | elseIfBranch (span : Span) (condition : Expr) (scope : ScopeInfo) (body : List Stmt)
  | elseBranch (span : Span) (scope : ScopeInfo) (body : List Stmt)
  | expr (expr : Expr)
  | exprList (role : ListRole) (list : ExprList)
  | broken (context : BrokenContext) (span : Span)
deriving Inhabited

namespace Node

def span : Node → Span
  | script whole => whole.span
  | global decl => decl.span
  | function decl => decl.span
  | parameters list => list.span
  | parameter decl => decl.span
  | state decl => decl.span
  | handler decl => decl.span
  | scope info _ => info.span
  | stmt statement => statement.span
  | ifBranch span _ _ _ => span
  | elseIfBranch span _ _ _ => span
  | elseBranch span _ _ => span
  | expr value => value.span
  | exprList _ list => list.span
  | broken _ span => span

def hasErrors : Node → Bool
  | script whole => whole.hasErrors
  | global decl => decl.hasErrors
  | function decl => decl.hasErrors
  | parameters list => list.hasErrors
  | parameter decl => decl.faulty
  | state decl => decl.hasErrors
  | handler decl => decl.hasErrors
  | scope _ body => Stmt.listHasErrors body
  | stmt statement => statement.hasErrors
  | ifBranch _ condition _ body => condition.hasErrors || Stmt.listHasErrors body
  | elseIfBranch _ condition _ body => condition.hasErrors || Stmt.listHasErrors body
  | elseBranch _ _ body => Stmt.listHasErrors body
  | expr value => value.hasErrors
  | exprList _ list => list.hasErrors
  | broken _ _ => true

/-- The reachability recorded at the node itself. -/
def reach? : Node → Option Reachability
  | scope info _ => some info.reach
  | stmt statement => some statement.reach
  | ifBranch _ _ info _ => some info.reach
  | elseIfBranch _ _ info _ => some info.reach
  | elseBranch _ info _ => some info.reach
  | _ => none

end Node

/-- A node and the nodes around it, the innermost first. -/
structure Occurrence where
  node : Node
  around : List Node
deriving Inhabited

mutual

def Expr.outline (around : List Node) : Expr → List Occurrence
  | .integer info raw => [⟨.expr (.integer info raw), around⟩]
  | .hex info raw => [⟨.expr (.hex info raw), around⟩]
  | .float info raw => [⟨.expr (.float info raw), around⟩]
  | .string info raw => [⟨.expr (.string info raw), around⟩]
  | .reference info name binding => [⟨.expr (.reference info name binding), around⟩]
  | .vector info x y z =>
    let here := Node.expr (.vector info x y z)
    let inside := here :: around
    ⟨here, around⟩ :: x.outline inside ++ y.outline inside ++ z.outline inside
  | .rotation info x y z s =>
    let here := Node.expr (.rotation info x y z s)
    let inside := here :: around
    ⟨here, around⟩ ::
      x.outline inside ++ y.outline inside ++ z.outline inside ++ s.outline inside
  | .list info inner elements =>
    let here := Node.expr (.list info inner elements)
    let list := Node.exprList .elements ⟨inner, elements⟩
    ⟨here, around⟩ :: ⟨list, here :: around⟩ ::
      Expr.listOutline (list :: here :: around) elements
  | .call info name inner arguments target =>
    let here := Node.expr (.call info name inner arguments target)
    let list := Node.exprList .arguments ⟨inner, arguments⟩
    ⟨here, around⟩ :: ⟨list, here :: around⟩ ::
      Expr.listOutline (list :: here :: around) arguments
  | .binary info operator left right =>
    let here := Node.expr (.binary info operator left right)
    ⟨here, around⟩ :: left.outline (here :: around) ++ right.outline (here :: around)
  | .prefixed info operator operand =>
    let here := Node.expr (.prefixed info operator operand)
    ⟨here, around⟩ :: operand.outline (here :: around)
  | .postfixed info operator operand =>
    let here := Node.expr (.postfixed info operator operand)
    ⟨here, around⟩ :: operand.outline (here :: around)
  | .cast info target operand =>
    let here := Node.expr (.cast info target operand)
    ⟨here, around⟩ :: operand.outline (here :: around)
  | .grouped info inner =>
    let here := Node.expr (.grouped info inner)
    ⟨here, around⟩ :: inner.outline (here :: around)
  | .component info part target =>
    let here := Node.expr (.component info part target)
    ⟨here, around⟩ :: target.outline (here :: around)

def Expr.listOutline (around : List Node) : List Expr → List Occurrence
  | [] => []
  | expr :: rest => expr.outline around ++ Expr.listOutline around rest

end

def ExprList.outline (around : List Node) (role : ListRole) (list : ExprList) :
    List Occurrence :=
  let here := Node.exprList role list
  ⟨here, around⟩ :: Expr.listOutline (here :: around) list.members

def outlineOption {α : Type} (outline : α → List Occurrence) : Option α → List Occurrence
  | some value => outline value
  | none => []

mutual

def Stmt.outline (around : List Node) : Stmt → List Occurrence
  | .block scope body =>
    ⟨.scope scope body, around⟩ :: Stmt.listOutline (.scope scope body :: around) body
  | .declare info decl =>
    let here := Node.stmt (.declare info decl)
    ⟨here, around⟩ :: outlineOption (Expr.outline (here :: around)) decl.initializer
  | .perform info value =>
    let here := Node.stmt (.perform info value)
    ⟨here, around⟩ :: value.outline (here :: around)
  | .giveBack info value =>
    let here := Node.stmt (.giveBack info value)
    ⟨here, around⟩ :: outlineOption (Expr.outline (here :: around)) value
  | .jump info label target => [⟨.stmt (.jump info label target), around⟩]
  | .label info name => [⟨.stmt (.label info name), around⟩]
  | .changeState info state target => [⟨.stmt (.changeState info state target), around⟩]
  | .branch info first condition scope body rest =>
    let here := Node.stmt (.branch info first condition scope body rest)
    let branch := Node.ifBranch first condition scope body
    let inner := Node.scope scope body
    ⟨here, around⟩ :: ⟨branch, here :: around⟩ ::
      condition.outline (branch :: here :: around) ++
      ⟨inner, branch :: here :: around⟩ ::
      Stmt.listOutline (inner :: branch :: here :: around) body ++
      rest.outline (here :: around)
  | .whileLoop info condition scope body =>
    let here := Node.stmt (.whileLoop info condition scope body)
    let inner := Node.scope scope body
    ⟨here, around⟩ :: condition.outline (here :: around) ++
      ⟨inner, here :: around⟩ :: Stmt.listOutline (inner :: here :: around) body
  | .doLoop info scope body condition =>
    let here := Node.stmt (.doLoop info scope body condition)
    let inner := Node.scope scope body
    ⟨here, around⟩ :: ⟨inner, here :: around⟩ ::
      Stmt.listOutline (inner :: here :: around) body ++ condition.outline (here :: around)
  | .forLoop info init condition afterthought scope body =>
    let here := Node.stmt (.forLoop info init condition afterthought scope body)
    let inner := Node.scope scope body
    ⟨here, around⟩ :: outlineOption (ExprList.outline (here :: around) .loopInit) init ++
      outlineOption (Expr.outline (here :: around)) condition ++
      outlineOption (ExprList.outline (here :: around) .loopAfterthought) afterthought ++
      ⟨inner, here :: around⟩ :: Stmt.listOutline (inner :: here :: around) body
  | .empty info => [⟨.stmt (.empty info), around⟩]
  | .broken span => [⟨.broken .statement span, around⟩]

def Stmt.listOutline (around : List Node) : List Stmt → List Occurrence
  | [] => []
  | stmt :: rest => stmt.outline around ++ Stmt.listOutline around rest

def Alternatives.outline (around : List Node) : Alternatives → List Occurrence
  | .done => []
  | .elseIf span condition scope body rest =>
    let here := Node.elseIfBranch span condition scope body
    let inner := Node.scope scope body
    ⟨here, around⟩ :: condition.outline (here :: around) ++
      ⟨inner, here :: around⟩ :: Stmt.listOutline (inner :: here :: around) body ++
      rest.outline around
  | .otherwise span scope body =>
    let here := Node.elseBranch span scope body
    let inner := Node.scope scope body
    ⟨here, around⟩ :: ⟨inner, here :: around⟩ ::
      Stmt.listOutline (inner :: here :: around) body

end

def Stmt.scopeOutline (around : List Node) (scope : ScopeInfo) (body : List Stmt) :
    List Occurrence :=
  ⟨.scope scope body, around⟩ :: Stmt.listOutline (.scope scope body :: around) body

def GlobalDecl.outline (around : List Node) (decl : GlobalDecl) : List Occurrence :=
  let here := Node.global decl
  ⟨here, around⟩ :: outlineOption (Expr.outline (here :: around)) decl.decl.initializer

def ParameterList.outline (around : List Node) (list : ParameterList) : List Occurrence :=
  let here := Node.parameters list
  ⟨here, around⟩ :: list.members.map fun decl => ⟨.parameter decl, here :: around⟩

def FunctionDecl.outline (around : List Node) (decl : FunctionDecl) : List Occurrence :=
  let here := Node.function decl
  ⟨here, around⟩ :: decl.parameters.outline (here :: around) ++
    Stmt.scopeOutline (here :: around) decl.scope decl.body

def HandlerDecl.outline (around : List Node) (decl : HandlerDecl) : List Occurrence :=
  let here := Node.handler decl
  ⟨here, around⟩ :: decl.parameters.outline (here :: around) ++
    Stmt.scopeOutline (here :: around) decl.scope decl.body

def StateMember.outline (around : List Node) : StateMember → List Occurrence
  | .handler decl => decl.outline around
  | .broken span => [⟨.broken .handler span, around⟩]

def StateDecl.outline (around : List Node) (decl : StateDecl) : List Occurrence :=
  let here := Node.state decl
  ⟨here, around⟩ :: decl.members.flatMap (StateMember.outline (here :: around))

def Script.outline (script : Script) : List Occurrence :=
  let here := Node.script script
  ⟨here, []⟩ ::
    script.globals.flatMap (GlobalDecl.outline [here]) ++
    script.functions.flatMap (FunctionDecl.outline [here]) ++
    outlineOption (StateDecl.outline [here]) script.defaultState ++
    script.states.flatMap (StateDecl.outline [here]) ++
    script.broken.map fun part => ⟨.broken part.context part.span, [here]⟩

end Lsl
