import Lsl.Proofs.Syntax.CodeScope
import Lsl.Syntax.Uses

/-!
The local variables that expressions and statements refer to. A body uses whatever the statements in
it and their expressions use.
-/

set_option autoImplicit false

namespace Lsl

/-- The start of the local declaration a name is bound to. -/
def Binding.local? : Binding → Option Nat
  | inScope declaration _ => some declaration
  | _ => none

mutual

/-- The starts of the local declarations that the names in an expression are bound to. -/
def Expr.locals : Expr → List Nat
  | .integer _ _ => []
  | .hex _ _ => []
  | .float _ _ => []
  | .string _ _ => []
  | .vector _ x y z => x.locals ++ y.locals ++ z.locals
  | .rotation _ x y z s => x.locals ++ y.locals ++ z.locals ++ s.locals
  | .list _ _ elements => Expr.listLocals elements
  | .reference _ _ binding => binding.local?.toList
  | .call _ _ _ arguments _ => Expr.listLocals arguments
  | .binary _ _ left right => left.locals ++ right.locals
  | .prefixed _ _ operand => operand.locals
  | .postfixed _ _ operand => operand.locals
  | .cast _ _ operand => operand.locals
  | .grouped _ inner => inner.locals
  | .component _ _ target => target.locals

def Expr.listLocals : List Expr → List Nat
  | [] => []
  | expr :: rest => expr.locals ++ Expr.listLocals rest

end

theorem Expr.list_locals_eq (exprs : List Expr) :
    Expr.listLocals exprs = exprs.flatMap Expr.locals := by
  induction exprs with
  | nil => rfl
  | cons expr exprs induction => rw [Expr.listLocals, induction, List.flatMap_cons]

def Alternatives.conditions : Alternatives → List Expr
  | .done => []
  | .elseIf _ condition _ _ rest => condition :: rest.conditions
  | .otherwise _ _ _ => []

namespace Stmt

def listExprs : Option ExprList → List Expr
  | some list => list.members
  | none => []

/-- The expressions of a statement, apart from those of the statements in it. -/
def exprs : Stmt → List Expr
  | declare _ decl => decl.initializer.toList
  | perform _ value => [value]
  | giveBack _ value => value.toList
  | branch _ _ condition _ _ rest => condition :: rest.conditions
  | whileLoop _ condition _ _ => [condition]
  | doLoop _ _ _ condition => [condition]
  | forLoop _ init condition afterthought _ _ =>
    listExprs init ++ condition.toList ++ listExprs afterthought
  | _ => []

/-- The starts of the local declarations that a statement itself refers to. -/
def locals (stmt : Stmt) : List Nat := stmt.exprs.flatMap Expr.locals

/-- The start of a declaration of a local variable. -/
def declaration? : Stmt → Option Nat
  | declare info _ => some info.span.start.offset
  | _ => none

theorem start_of_declaration {stmt : Stmt} {start : Nat}
    (declares : stmt.declaration? = some start) : stmt.start = start := by
  cases stmt <;> simp_all [declaration?, Stmt.start, span]

theorem parts_of_declaration {stmt : Stmt} {start : Nat}
    (declares : stmt.declaration? = some start) : stmt.parts = [] := by
  cases stmt <;> simp_all [declaration?, parts]

end Stmt

theorem Alternatives.uses_of_part {rest : Alternatives} {part : CodeScope}
    (member : part ∈ rest.parts) : Stmt.listUses part.body ⊆ rest.uses := by
  match rest with
  | .done => simp [Alternatives.parts] at member
  | .elseIf _ condition _ body rest =>
      rcases List.mem_cons.mp member with rfl | member
      · exact fun use inside => List.mem_append_left _ (List.mem_append_right _ inside)
      · exact fun use inside => List.mem_append_right _ (Alternatives.uses_of_part member inside)
  | .otherwise _ _ body =>
      obtain rfl := List.mem_singleton.mp member
      exact List.Subset.refl _

namespace Stmt

theorem uses_of_part {stmt : Stmt} {part : CodeScope} (member : part ∈ stmt.parts) :
    listUses part.body ⊆ stmt.uses := by
  cases stmt with
  | branch info first condition scope body rest =>
      rcases List.mem_cons.mp member with rfl | member
      · exact fun use inside => List.mem_append_left _ (List.mem_append_right _ inside)
      · exact fun use inside => List.mem_append_right _ (Alternatives.uses_of_part member inside)
  | forLoop info init condition afterthought scope body =>
      obtain rfl := List.mem_singleton.mp member
      exact fun use inside => List.mem_append_right _ inside
  | _ => simp_all [parts, uses]

theorem uses_subset {stmt : Stmt} {body : List Stmt} (inside : stmt ∈ listStatements body) :
    stmt.uses ⊆ listUses body := by
  induction body using Stmt.list_induction with
  | nil => simp [listStatements] at inside
  | cons head rest inner outer =>
      intro use made
      rcases mem_list_statements_cons.mp inside with rfl | ⟨part, member, inside⟩ | inside
      · exact List.mem_append_left _ made
      · exact List.mem_append_left _ (uses_of_part member (inner part member inside made))
      · exact List.mem_append_right _ (outer inside made)

end Stmt

theorem Alternatives.conditions_used (rest : Alternatives) :
    ∀ expr ∈ rest.conditions, expr.uses ⊆ rest.uses := by
  match rest with
  | .done => simp [Alternatives.conditions]
  | .elseIf _ condition _ body rest =>
      intro expr member use made
      rcases List.mem_cons.mp member with rfl | member
      · exact List.mem_append_left _ (List.mem_append_left _ made)
      · exact List.mem_append_right _ (rest.conditions_used expr member made)
  | .otherwise _ _ _ => simp [Alternatives.conditions]

namespace Stmt

theorem list_exprs_used (list : Option ExprList) :
    ∀ expr ∈ listExprs list, expr.uses ⊆ ExprList.optionUses list := by
  cases list with
  | none => simp [listExprs]
  | some list =>
      intro expr member use made
      have flat : Expr.listUses list.members = list.members.flatMap Expr.uses := by
        induction list.members with
        | nil => rfl
        | cons first rest induction => rw [Expr.listUses, induction, List.flatMap_cons]
      rw [ExprList.optionUses, flat]
      exact List.mem_flatMap.mpr ⟨expr, member, made⟩

theorem option_expr_used (value : Option Expr) :
    ∀ expr ∈ value.toList, expr.uses ⊆ Expr.optionUses value := by
  cases value with
  | none => simp
  | some value =>
      intro expr member
      obtain rfl : expr = value := by simpa using member
      exact List.Subset.refl _

theorem exprs_used (stmt : Stmt) : ∀ expr ∈ stmt.exprs, expr.uses ⊆ stmt.uses := by
  cases stmt with
  | declare info decl => exact option_expr_used decl.initializer
  | giveBack info value => exact option_expr_used value
  | branch info first condition scope body rest =>
      intro expr member use made
      rcases List.mem_cons.mp member with rfl | member
      · exact List.mem_append_left _ (List.mem_append_left _ made)
      · exact List.mem_append_right _ (rest.conditions_used expr member made)
  | forLoop info init condition afterthought scope body =>
      intro expr member use made
      simp only [exprs, List.mem_append] at member
      simp only [uses, List.mem_append]
      rcases member with (member | member) | member
      · exact .inl (.inl (.inl (list_exprs_used init expr member made)))
      · exact .inl (.inl (.inr (option_expr_used condition expr member made)))
      · exact .inl (.inr (list_exprs_used afterthought expr member made))
  | _ => simp_all [exprs, uses]

end Stmt

end Lsl
