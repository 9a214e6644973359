import Lsl.Proofs.Syntax.Locals
import Lsl.Proofs.Syntax.Parts

/-!
The bodies of the functions and handlers of a script, and the expressions in them and in the globals.
What a node of one of these expressions is bound to is used. Errors stand at a statement itself, in
its expressions or in the scopes inside it.
-/

set_option autoImplicit false

namespace Lsl

/-- The expressions of the statements of a body and of those inside them. -/
def Stmt.bodyExprs (body : List Stmt) : List Expr := (Stmt.listStatements body).flatMap Stmt.exprs

def FunctionDecl.ownScope (decl : FunctionDecl) : CodeScope := ⟨decl.scope, decl.body⟩

def HandlerDecl.ownScope (decl : HandlerDecl) : CodeScope := ⟨decl.scope, decl.body⟩

def StateMember.body? : StateMember → Option CodeScope
  | .handler decl => some ⟨decl.scope, decl.body⟩
  | .broken _ => none

def StateMember.handler? : StateMember → Option HandlerDecl
  | .handler decl => some decl
  | .broken _ => none

def StateDecl.bodies (decl : StateDecl) : List CodeScope := decl.members.filterMap StateMember.body?

def StateDecl.handlers (decl : StateDecl) : List HandlerDecl :=
  decl.members.filterMap StateMember.handler?

def StateDecl.exprs (decl : StateDecl) : List Expr :=
  decl.bodies.flatMap fun body => Stmt.bodyExprs body.body

/-- The states of a script, the default state first. -/
def Script.allStates (script : Script) : List StateDecl :=
  script.defaultState.toList ++ script.states

/-- The bodies of the functions and handlers of a script. -/
def Script.bodies (script : Script) : List CodeScope :=
  script.functions.map FunctionDecl.ownScope ++
    (script.defaultState.toList ++ script.states).flatMap StateDecl.bodies

/-- The expressions of a script, apart from those inside of others. -/
def Script.exprs (script : Script) : List Expr :=
  script.globals.flatMap (·.decl.initializer.toList) ++
    script.bodies.flatMap fun body => Stmt.bodyExprs body.body

/-- The nodes of the expressions of a script. -/
def Script.nodes (script : Script) : List Expr := script.exprs.flatMap Expr.nodes

namespace Expr

theorem list_uses_eq (exprs : List Expr) : listUses exprs = exprs.flatMap uses := by
  induction exprs with
  | nil => rfl
  | cons expr rest induction => rw [listUses, induction, List.flatMap_cons]

theorem uses_of_part {expr part : Expr} (member : part ∈ expr.parts) : part.uses ⊆ expr.uses := by
  have among : part.uses ⊆ expr.parts.flatMap uses := fun _ inside =>
    List.mem_flatMap.mpr ⟨part, member, inside⟩
  refine List.Subset.trans among ?_
  cases expr <;> simp [parts, uses, list_uses_eq]

theorem uses_of_node {expr node : Expr} (inside : node ∈ expr.nodes) : node.uses ⊆ expr.uses := by
  induction expr using parts_induction with
  | step expr induction =>
      rcases mem_nodes.mp inside with rfl | ⟨part, member, inside⟩
      · exact List.Subset.refl _
      · exact List.Subset.trans (induction part member inside) (uses_of_part member)

end Expr

theorem Stmt.uses_of_body_expr {body : List Stmt} {expr : Expr} (member : expr ∈ bodyExprs body) :
    expr.uses ⊆ listUses body := by
  obtain ⟨stmt, inside, own⟩ := List.mem_flatMap.mp member
  exact List.Subset.trans (stmt.exprs_used expr own) (uses_subset inside)

theorem StateDecl.own_scope_mem {state : StateDecl} {decl : HandlerDecl}
    (member : decl ∈ state.handlers) : decl.ownScope ∈ state.bodies := by
  obtain ⟨part, inside, found⟩ := List.mem_filterMap.mp member
  cases part with
  | handler handler =>
      cases found
      exact List.mem_filterMap.mpr ⟨_, inside, rfl⟩
  | broken span => cases found

theorem StateDecl.uses_of_body {decl : StateDecl} {body : CodeScope} (member : body ∈ decl.bodies) :
    Stmt.listUses body.body ⊆ decl.uses := by
  obtain ⟨part, inside, found⟩ := List.mem_filterMap.mp member
  have own : part.uses ⊆ decl.uses := fun _ used => List.mem_flatMap.mpr ⟨part, inside, used⟩
  cases part with
  | handler handler =>
      cases found
      exact own
  | broken span => cases found

namespace Script

variable {script : Script}

theorem uses_of_body {body : CodeScope} (inside : body ∈ script.bodies) :
    Stmt.listUses body.body ⊆ script.boundUses := by
  intro use made
  simp only [boundUses, List.mem_append, List.mem_flatMap]
  rcases List.mem_append.mp inside with among | among
  · obtain ⟨decl, known, rfl⟩ := List.mem_map.mp among
    exact .inl (.inl (.inr ⟨decl, known, made⟩))
  · obtain ⟨state, known, own⟩ := List.mem_flatMap.mp among
    have used := StateDecl.uses_of_body own made
    rcases List.mem_append.mp known with known | known
    · exact .inl (.inr ⟨state, known, used⟩)
    · exact .inr ⟨state, known, used⟩

theorem uses_of_expr {expr : Expr} (member : expr ∈ script.exprs) :
    expr.uses ⊆ script.boundUses := by
  rcases List.mem_append.mp member with member | member
  · intro use inside
    obtain ⟨global, known, given⟩ := List.mem_flatMap.mp member
    simp only [boundUses, List.mem_append, List.mem_flatMap]
    refine .inl (.inl (.inl ⟨global, known, ?_⟩))
    rw [Option.mem_toList.mp given]
    exact inside
  · obtain ⟨body, among, own⟩ := List.mem_flatMap.mp member
    exact List.Subset.trans (Stmt.uses_of_body_expr own) (uses_of_body among)

theorem part_mem_nodes {node part : Expr} (inside : node ∈ script.nodes)
    (member : part ∈ node.parts) : part ∈ script.nodes := by
  obtain ⟨expr, known, own⟩ := List.mem_flatMap.mp inside
  exact List.mem_flatMap.mpr ⟨expr, known, Expr.mem_nodes_of_node own member⟩

theorem is_used {node : Expr} (member : node ∈ script.nodes) {use : Use}
    (bound : use ∈ node.uses) : Use.isUsed script.boundUses use.declaration = true := by
  obtain ⟨expr, inside, own⟩ := List.mem_flatMap.mp member
  have used := uses_of_expr inside (Expr.uses_of_node own bound)
  exact List.any_eq_true.mpr ⟨use, used, by simp⟩

end Script

theorem Alternatives.has_errors_iff {rest : Alternatives} :
    rest.hasErrors = false ↔
      (∀ expr ∈ rest.conditions, expr.hasErrors = false) ∧
        ∀ part ∈ rest.parts, Stmt.listHasErrors part.body = false := by
  match rest with
  | .done => simp [Alternatives.hasErrors, Alternatives.conditions, Alternatives.parts]
  | .elseIf _ condition _ body rest =>
      have others := @Alternatives.has_errors_iff rest
      simp only [Alternatives.hasErrors, Alternatives.conditions, Alternatives.parts,
        Bool.or_eq_false_iff, List.forall_mem_cons, others]
      grind
  | .otherwise _ _ body =>
      simp [Alternatives.hasErrors, Alternatives.conditions, Alternatives.parts]

namespace Stmt

/-- Something is wrong with the statement itself. -/
def isFaulty : Stmt → Bool
  | block _ _ => false
  | declare info _ => info.faulty
  | perform info _ => info.faulty
  | giveBack info _ => info.faulty
  | jump info _ _ => info.faulty
  | label info _ => info.faulty
  | changeState info _ _ => info.faulty
  | branch info _ _ _ _ _ => info.faulty
  | whileLoop info _ _ _ => info.faulty
  | doLoop info _ _ _ => info.faulty
  | forLoop info _ _ _ _ _ => info.faulty
  | empty info => info.faulty
  | broken _ => true

theorem option_has_errors_iff {value : Option Expr} :
    value.any Expr.hasErrors = false ↔ ∀ expr ∈ value.toList, expr.hasErrors = false := by
  cases value <;> simp

theorem list_option_has_errors_iff {list : Option ExprList} :
    list.any ExprList.hasErrors = false ↔ ∀ expr ∈ listExprs list, expr.hasErrors = false := by
  cases list <;> simp [listExprs, ExprList.hasErrors, Expr.list_has_errors_iff]

/-- A statement is free of errors if it is not at fault and all that stands in it is free of
them. -/
theorem has_errors_iff {stmt : Stmt} :
    stmt.hasErrors = false ↔
      stmt.isFaulty = false ∧ (∀ expr ∈ stmt.exprs, expr.hasErrors = false) ∧
        ∀ part ∈ stmt.parts, listHasErrors part.body = false := by
  cases stmt with
  | declare info decl =>
      simp [hasErrors, isFaulty, exprs, parts, Variable.hasErrors, option_has_errors_iff]
  | giveBack info value => simp [hasErrors, isFaulty, exprs, parts, option_has_errors_iff]
  | branch info first condition scope body rest =>
      simp only [hasErrors, isFaulty, exprs, parts, Bool.or_eq_false_iff, List.forall_mem_cons,
        Alternatives.has_errors_iff]
      grind
  | doLoop info scope body condition =>
      simp only [hasErrors, isFaulty, exprs, parts, Bool.or_eq_false_iff, List.forall_mem_singleton]
      grind
  | forLoop info init condition afterthought scope body =>
      simp only [hasErrors, isFaulty, exprs, parts, Bool.or_eq_false_iff, List.forall_mem_append,
        List.forall_mem_singleton, option_has_errors_iff, list_option_has_errors_iff, and_assoc]
  | _ => simp [hasErrors, isFaulty, exprs, parts, and_assoc]

end Stmt

theorem Script.has_errors_iff {script : Script} :
    script.hasErrors = false ↔
      script.faulty = false ∧ (∀ global ∈ script.globals, global.hasErrors = false) ∧
        (∀ decl ∈ script.functions, decl.hasErrors = false) ∧
        (∀ state ∈ script.allStates, state.hasErrors = false) ∧ script.broken = [] := by
  have states : (∀ state ∈ script.allStates, state.hasErrors = false) ↔
      script.defaultState.any StateDecl.hasErrors = false ∧
        script.states.any StateDecl.hasErrors = false := by
    rw [Script.allStates, List.forall_mem_append, List.any_eq_false]
    cases script.defaultState <;> simp
  rw [states]
  simp [Script.hasErrors, and_assoc]

end Lsl
