import Lsl.Syntax.Expr

/-!
The statements of a script. Checking binds their jumps and state changes and says which of them can
be reached.
-/

set_option autoImplicit false

namespace Lsl

/-- Expressions separated by commas, as one node. -/
structure ExprList where
  span : Span
  members : List Expr
deriving Inhabited, Repr

/-- Whether a statement can be reached. Jumped-over code is skipped by a jump whose label follows
in the same scope or in one around it. -/
inductive Reachability where
  | live
  | dead
  | jumpedOver
deriving DecidableEq, Inhabited, Repr

inductive ScopeRole where
  | function
  | handler
  | block
  | ifBody
  | elseIfBody
  | elseBody
  | whileLoop
  | doLoop
  | forLoop
deriving DecidableEq, Inhabited, Repr

/-- Scopes that run again and again, or are entered from outside. -/
def ScopeRole.isCheckpoint : ScopeRole → Bool
  | function => true
  | handler => true
  | whileLoop => true
  | doLoop => true
  | forLoop => true
  | _ => false

/-- A code scope apart from its statements. A scope of a single statement is written without
braces. -/
structure ScopeInfo where
  span : Span
  id : Nat
  role : ScopeRole
  single : Bool := false
  reach : Reachability := .live
deriving DecidableEq, Inhabited, Repr

structure StmtInfo where
  span : Span
  reach : Reachability := .live
  faulty : Bool := false
deriving DecidableEq, Inhabited, Repr

/-- A variable, apart from where it is declared. -/
structure Variable where
  type : ValueType
  name : String
  initializer : Option Expr
deriving Inhabited, Repr

/-- The label a jump goes to, and whether it stands in a scope around the jump. -/
structure JumpTarget where
  label : Nat
  inReach : Bool
deriving DecidableEq, Inhabited, Repr

mutual

inductive Stmt where
  | block (scope : ScopeInfo) (body : List Stmt)
  | declare (info : StmtInfo) (decl : Variable)
  | perform (info : StmtInfo) (value : Expr)
  | giveBack (info : StmtInfo) (value : Option Expr)
  | jump (info : StmtInfo) (label : String) (target : Option JumpTarget)
  | label (info : StmtInfo) (name : String)
  | changeState (info : StmtInfo) (state : String) (target : Option Nat)
  | branch (info : StmtInfo) (first : Span) (condition : Expr) (scope : ScopeInfo)
    (body : List Stmt) (rest : Alternatives)
  | whileLoop (info : StmtInfo) (condition : Expr) (scope : ScopeInfo) (body : List Stmt)
  | doLoop (info : StmtInfo) (scope : ScopeInfo) (body : List Stmt) (condition : Expr)
  | forLoop (info : StmtInfo) (init : Option ExprList) (condition : Option Expr)
    (afterthought : Option ExprList) (scope : ScopeInfo) (body : List Stmt)
  | empty (info : StmtInfo)
  | broken (span : Span)

/-- What follows the first branch of an `if`. -/
inductive Alternatives where
  | done
  | elseIf (span : Span) (condition : Expr) (scope : ScopeInfo) (body : List Stmt)
    (rest : Alternatives)
  | otherwise (span : Span) (scope : ScopeInfo) (body : List Stmt)

end

instance : Inhabited Stmt := ⟨.broken default⟩

instance : Inhabited Alternatives := ⟨.done⟩

namespace Stmt

def span : Stmt → Span
  | block scope _ => scope.span
  | declare info _ => info.span
  | perform info _ => info.span
  | giveBack info _ => info.span
  | jump info _ _ => info.span
  | label info _ => info.span
  | changeState info _ _ => info.span
  | branch info _ _ _ _ _ => info.span
  | whileLoop info _ _ _ => info.span
  | doLoop info _ _ _ => info.span
  | forLoop info _ _ _ _ _ => info.span
  | empty info => info.span
  | broken span => span

def reach : Stmt → Reachability
  | block scope _ => scope.reach
  | declare info _ => info.reach
  | perform info _ => info.reach
  | giveBack info _ => info.reach
  | jump info _ _ => info.reach
  | label info _ => info.reach
  | changeState info _ _ => info.reach
  | branch info _ _ _ _ _ => info.reach
  | whileLoop info _ _ _ => info.reach
  | doLoop info _ _ _ => info.reach
  | forLoop info _ _ _ _ _ => info.reach
  | empty info => info.reach
  | broken _ => .live

def start (stmt : Stmt) : Nat := stmt.span.start.offset

/-- The statement hands control elsewhere, whatever happens. -/
def isExit : Stmt → Bool
  | giveBack _ _ => true
  | jump _ _ _ => true
  | changeState _ _ _ => true
  | _ => false

end Stmt

def ExprList.hasErrors (list : ExprList) : Bool := Expr.listHasErrors list.members

def ExprList.hasEffects (list : ExprList) : Bool := Expr.anyHasEffects list.members

def Variable.hasErrors (decl : Variable) : Bool := decl.initializer.any Expr.hasErrors

mutual

def Stmt.hasErrors : Stmt → Bool
  | .block _ body => Stmt.listHasErrors body
  | .declare info decl => info.faulty || decl.hasErrors
  | .perform info value => info.faulty || value.hasErrors
  | .giveBack info value => info.faulty || value.any Expr.hasErrors
  | .jump info _ _ => info.faulty
  | .label info _ => info.faulty
  | .changeState info _ _ => info.faulty
  | .branch info _ condition _ body rest =>
    info.faulty || condition.hasErrors || Stmt.listHasErrors body || rest.hasErrors
  | .whileLoop info condition _ body =>
    info.faulty || condition.hasErrors || Stmt.listHasErrors body
  | .doLoop info _ body condition =>
    info.faulty || Stmt.listHasErrors body || condition.hasErrors
  | .forLoop info init condition afterthought _ body =>
    info.faulty || init.any ExprList.hasErrors || condition.any Expr.hasErrors ||
      afterthought.any ExprList.hasErrors || Stmt.listHasErrors body
  | .empty info => info.faulty
  | .broken _ => true

def Stmt.listHasErrors : List Stmt → Bool
  | [] => false
  | stmt :: rest => stmt.hasErrors || Stmt.listHasErrors rest

def Alternatives.hasErrors : Alternatives → Bool
  | .done => false
  | .elseIf _ condition _ body rest =>
    condition.hasErrors || Stmt.listHasErrors body || rest.hasErrors
  | .otherwise _ _ body => Stmt.listHasErrors body

end

end Lsl
