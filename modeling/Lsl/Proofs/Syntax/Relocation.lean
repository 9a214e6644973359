import Lsl.Checking.Script
import Lsl.Proofs.Syntax.Mentions

/-!
Scripts up to positions. A relocation gives new numbers to the places where declarations and
statements start and to code scopes, and forgets all other positions. What is left if everything is
put in one place is what a script says, apart from where it says it.
-/

set_option autoImplicit false

namespace Lsl

/-- New numbers for places and scopes. -/
structure Relocation where
  /-- Where local variables and labels start. -/
  inner : Nat → Nat
  /-- Where parameters and the declarations around the bodies start. -/
  outer : Nat → Nat
  plain : Nat → Nat
  scope : Nat → Nat

/-- What becomes of what names are bound to. -/
structure Linking where
  binding : Binding → Binding
  call : CallTarget → CallTarget

/-- Names that are bound to nothing. -/
def Linking.none : Linking := ⟨fun _ => .unresolved, fun _ => .unresolved⟩

/-- What becomes of the parts of a tree. -/
structure Recast where
  linking : Linking
  jump : JumpTarget → Option JumpTarget
  state : Nat → Option Nat
  inner : Nat → Nat
  outer : Nat → Nat
  plain : Nat → Nat
  scope : Nat → Nat

namespace Relocation

variable (relocation : Relocation)

def binding : Binding → Binding
  | .global declaration => .global (relocation.outer declaration)
  | .inScope declaration scope => .inScope (relocation.inner declaration) (relocation.scope scope)
  | .parameter declaration => .parameter (relocation.outer declaration)
  | .unresolved => .unresolved
  | .constant => .constant

def call : CallTarget → CallTarget
  | .script declaration => .script (relocation.outer declaration)
  | .library signature => .library signature
  | .unresolved => .unresolved

def linking : Linking := ⟨relocation.binding, relocation.call⟩

def bound : Recast where
  linking := relocation.linking
  jump target := some { target with label := relocation.inner target.label }
  state declaration := some (relocation.outer declaration)
  inner := relocation.inner
  outer := relocation.outer
  plain := relocation.plain
  scope := relocation.scope

/-- Relocates a tree as it is read, with nothing bound. -/
def unbound : Recast where
  linking := .none
  jump _ := none
  state _ := none
  inner := relocation.inner
  outer := relocation.outer
  plain := relocation.plain
  scope := relocation.scope

/-- Everything in one place. -/
def nowhere : Relocation := ⟨fun _ => 0, fun _ => 0, fun _ => 0, fun _ => 0⟩

end Relocation

/-- The place where a span starts, given a new number. -/
def Span.recast (place : Nat → Nat) (span : Span) : Span :=
  .point ⟨place span.start.offset, 0, 0⟩

def ExprInfo.recast (info : ExprInfo) : ExprInfo := { info with span := default }

def StmtInfo.recast (place : Nat → Nat) (info : StmtInfo) : StmtInfo :=
  { info with span := info.span.recast place }

def ScopeInfo.recast (cast : Recast) (scope : ScopeInfo) : ScopeInfo :=
  { scope with span := default, id := cast.scope scope.id }

mutual

def Expr.recast (linking : Linking) : Expr → Expr
  | .integer info raw => .integer info.recast raw
  | .hex info raw => .hex info.recast raw
  | .float info raw => .float info.recast raw
  | .string info raw => .string info.recast raw
  | .vector info x y z =>
    .vector info.recast (x.recast linking) (y.recast linking) (z.recast linking)
  | .rotation info x y z s =>
    .rotation info.recast (x.recast linking) (y.recast linking) (z.recast linking)
      (s.recast linking)
  | .list info _ elements => .list info.recast default (Expr.listRecast linking elements)
  | .reference info name binding => .reference info.recast name (linking.binding binding)
  | .call info name _ arguments target =>
    .call info.recast name default (Expr.listRecast linking arguments) (linking.call target)
  | .binary info operator left right =>
    .binary info.recast operator (left.recast linking) (right.recast linking)
  | .prefixed info operator operand => .prefixed info.recast operator (operand.recast linking)
  | .postfixed info operator operand => .postfixed info.recast operator (operand.recast linking)
  | .cast info target operand => .cast info.recast target (operand.recast linking)
  | .grouped info inner => .grouped info.recast (inner.recast linking)
  | .component info part target => .component info.recast part (target.recast linking)

def Expr.listRecast (linking : Linking) : List Expr → List Expr
  | [] => []
  | expr :: rest => expr.recast linking :: Expr.listRecast linking rest

end

def ExprList.recast (cast : Recast) (list : ExprList) : ExprList :=
  ⟨default, list.members.map (Expr.recast cast.linking)⟩

def Variable.recast (cast : Recast) (decl : Variable) : Variable :=
  { decl with initializer := decl.initializer.map (Expr.recast cast.linking) }

mutual

def Stmt.recast (cast : Recast) : Stmt → Stmt
  | .block scope body =>
    .block { scope.recast cast with span := scope.span.recast cast.plain }
      (Stmt.listRecast cast body)
  | .declare info decl => .declare (info.recast cast.inner) (decl.recast cast)
  | .perform info value => .perform (info.recast cast.plain) (value.recast cast.linking)
  | .giveBack info value =>
    .giveBack (info.recast cast.plain) (value.map (Expr.recast cast.linking))
  | .jump info label target => .jump (info.recast cast.plain) label (target.bind cast.jump)
  | .label info name => .label (info.recast cast.inner) name
  | .changeState info state target =>
    .changeState (info.recast cast.plain) state (target.bind cast.state)
  | .branch info _ condition scope body rest =>
    .branch (info.recast cast.plain) default (condition.recast cast.linking) (scope.recast cast)
      (Stmt.listRecast cast body) (rest.recast cast)
  | .whileLoop info condition scope body =>
    .whileLoop (info.recast cast.plain) (condition.recast cast.linking) (scope.recast cast)
      (Stmt.listRecast cast body)
  | .doLoop info scope body condition =>
    .doLoop (info.recast cast.plain) (scope.recast cast) (Stmt.listRecast cast body)
      (condition.recast cast.linking)
  | .forLoop info init condition afterthought scope body =>
    .forLoop (info.recast cast.plain) (init.map (ExprList.recast cast))
      (condition.map (Expr.recast cast.linking)) (afterthought.map (ExprList.recast cast))
      (scope.recast cast) (Stmt.listRecast cast body)
  | .empty info => .empty (info.recast cast.plain)
  | .broken span => .broken (span.recast cast.plain)

def Stmt.listRecast (cast : Recast) : List Stmt → List Stmt
  | [] => []
  | stmt :: rest => stmt.recast cast :: Stmt.listRecast cast rest

def Alternatives.recast (cast : Recast) : Alternatives → Alternatives
  | .done => .done
  | .elseIf _ condition scope body rest =>
    .elseIf default (condition.recast cast.linking) (scope.recast cast) (Stmt.listRecast cast body)
      (rest.recast cast)
  | .otherwise _ scope body => .otherwise default (scope.recast cast) (Stmt.listRecast cast body)

end

section

variable (relocation : Relocation)

def ParameterDecl.relocate (decl : ParameterDecl) : ParameterDecl :=
  { decl with span := decl.span.recast relocation.outer }

def ParameterList.relocate (list : ParameterList) : ParameterList :=
  ⟨default, list.members.map (ParameterDecl.relocate relocation)⟩

def CodeScope.relocate (scope : CodeScope) : CodeScope :=
  ⟨scope.info.recast relocation.unbound, Stmt.listRecast relocation.unbound scope.body⟩

def Routine.relocate (routine : Routine) : Routine :=
  ⟨routine.parameters.relocate relocation, routine.scope.relocate relocation⟩

end

theorem Stmt.list_recast_eq (cast : Recast) (body : List Stmt) :
    listRecast cast body = body.map (recast cast) := by
  induction body with
  | nil => rfl
  | cons stmt rest induction => rw [listRecast, induction, List.map_cons]

namespace Expr

@[simp] theorem list_recast_eq (linking : Linking) (exprs : List Expr) :
    listRecast linking exprs = exprs.map (recast linking) := by
  induction exprs with
  | nil => rfl
  | cons expr rest induction => rw [listRecast, induction, List.map_cons]

@[simp] theorem info_recast (linking : Linking) (expr : Expr) :
    (expr.recast linking).info = expr.info.recast := by
  cases expr <;> rfl

@[simp] theorem type_recast (linking : Linking) (expr : Expr) :
    (expr.recast linking).type? = expr.type? := by
  rw [type?, info_recast]
  rfl

theorem with_info_recast (linking : Linking) (expr : Expr) (info : ExprInfo) :
    (expr.withInfo info).recast linking = (expr.recast linking).withInfo info.recast := by
  cases expr <;> rfl

@[simp] theorem blamed_recast (linking : Linking) (expr : Expr) :
    (expr.recast linking).blamed = expr.blamed.recast linking := by
  rw [blamed, blamed, with_info_recast, info_recast]
  rfl

mutual

@[simp] theorem has_errors_recast (linking : Linking) (expr : Expr) :
    (expr.recast linking).hasErrors = expr.hasErrors := by
  cases expr <;>
    simp only [recast, hasErrors, ExprInfo.recast, has_errors_recast, list_has_errors_recast]

theorem list_has_errors_recast (linking : Linking) (exprs : List Expr) :
    listHasErrors (listRecast linking exprs) = listHasErrors exprs := by
  cases exprs <;> simp only [listRecast, listHasErrors, has_errors_recast, list_has_errors_recast]

end

end Expr

end Lsl
