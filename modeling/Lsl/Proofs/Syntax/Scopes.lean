import Lsl.Proofs.Syntax.Bodies
import Lsl.Proofs.Syntax.Children

/-!
The code scopes in an outline. The nodes of a script that are scopes come in the order in which the
scopes of its bodies are listed.
-/

set_option autoImplicit false

namespace Lsl

/-- The scope that a node is. Other nodes are none, whatever scopes there are in them. -/
def Node.scope? : Node → Option CodeScope
  | scope info body => some ⟨info, body⟩
  | _ => none

/-- The scopes in an outline. -/
def outlineScopes (outline : List Occurrence) : List CodeScope :=
  outline.filterMap fun occurrence => occurrence.node.scope?

section

variable (around : List Node)

theorem outline_scopes_nil : outlineScopes [] = [] := rfl

theorem outline_scopes_append (front back : List Occurrence) :
    outlineScopes (front ++ back) = outlineScopes front ++ outlineScopes back :=
  List.filterMap_append

theorem outline_scopes_cons (node : Node) (rest : List Occurrence) :
    outlineScopes (⟨node, around⟩ :: rest) = node.scope?.toList ++ outlineScopes rest := by
  cases shown : node.scope? <;> simp [outlineScopes, shown]

/-- There is no scope in an expression. -/
theorem Expr.outline_scopes (expr : Expr) : outlineScopes (expr.outline around) = [] := by
  have inside : (Node.expr expr).Throughout fun node => node.scope? = none :=
    expr.throughout (fun _ => rfl) fun _ _ => rfl
  exact List.filterMap_eq_nil_iff.mpr (inside.outline around nofun)

theorem ExprList.outline_scopes (role : ListRole) (list : ExprList) :
    outlineScopes (list.outline around role) = [] := by
  have inside : (Node.exprList role list).Throughout fun node => node.scope? = none :=
    list.throughout (fun _ => rfl) (fun _ _ => rfl) role
  exact List.filterMap_eq_nil_iff.mpr (inside.outline around nofun)

theorem option_outline_scopes {α : Type} {outline : α → List Occurrence}
    (each : ∀ value, outlineScopes (outline value) = []) (value : Option α) :
    outlineScopes (outlineOption outline value) = [] := by
  cases value with
  | none => rfl
  | some value => exact each value

theorem Alternatives.outline_scopes (rest : Alternatives)
    (inside : ∀ part ∈ rest.parts, ∀ around,
      outlineScopes (Stmt.listOutline around part.body) = Stmt.listScopes part.body) :
    outlineScopes (rest.outline around) = rest.parts.flatMap CodeScope.scopes := by
  match rest with
  | .done => rfl
  | .elseIf span condition scope body rest =>
      obtain ⟨own, others⟩ := List.forall_mem_cons.mp inside
      simp [outline, parts, outline_scopes_append, outline_scopes_cons, condition.outline_scopes,
        own, rest.outline_scopes others, Node.scope?, CodeScope.scopes]
  | .otherwise span scope body =>
      obtain ⟨own, _⟩ := List.forall_mem_cons.mp inside
      simp [outline, parts, outline_scopes_cons, own, Node.scope?, CodeScope.scopes]

theorem Stmt.outline_scopes (stmt : Stmt)
    (inside : ∀ part ∈ stmt.parts, ∀ around,
      outlineScopes (Stmt.listOutline around part.body) = Stmt.listScopes part.body) :
    outlineScopes (stmt.outline around) = stmt.parts.flatMap CodeScope.scopes := by
  have expr (around : List Node) (value : Option Expr) :
      outlineScopes (outlineOption (Expr.outline around) value) = [] :=
    option_outline_scopes (Expr.outline_scopes around) value
  have list (around : List Node) (role : ListRole) (value : Option ExprList) :
      outlineScopes (outlineOption (ExprList.outline around role) value) = [] :=
    option_outline_scopes (ExprList.outline_scopes around role) value
  cases stmt with
  | branch info first condition scope body rest =>
      obtain ⟨own, others⟩ := List.forall_mem_cons.mp inside
      simp [outline, parts, outline_scopes_append, outline_scopes_cons, Expr.outline_scopes,
        own, rest.outline_scopes _ others, Node.scope?, CodeScope.scopes]
  | block scope body | whileLoop info condition scope body | doLoop info scope body condition
  | forLoop info init condition afterthought scope body =>
      obtain ⟨own, _⟩ := List.forall_mem_cons.mp inside
      simp [outline, parts, outline_scopes_append, outline_scopes_cons, Expr.outline_scopes,
        expr, list, own, Node.scope?, CodeScope.scopes]
  | _ =>
      simp [outline, parts, outline_scopes_cons, outline_scopes_nil, Expr.outline_scopes, expr,
        Node.scope?]

theorem Stmt.list_outline_scopes (body : List Stmt) :
    outlineScopes (Stmt.listOutline around body) = Stmt.listScopes body := by
  induction body using list_induction generalizing around with
  | nil => rfl
  | cons stmt rest inner outer =>
      rw [listOutline, outline_scopes_append, stmt.outline_scopes around inner, outer,
        listScopes, scopes_eq]

theorem Stmt.scope_outline_scopes (scope : CodeScope) :
    outlineScopes (scopeOutline around scope.info scope.body) = scope.scopes := by
  rw [scopeOutline, outline_scopes_cons, list_outline_scopes]
  rfl

theorem outline_scopes_flat_map {α : Type} {outline : α → List Occurrence}
    {scopes : α → List CodeScope} (same : ∀ value, outlineScopes (outline value) = scopes value)
    (values : List α) :
    outlineScopes (values.flatMap outline) = values.flatMap scopes := by
  induction values with
  | nil => rfl
  | cons value rest induction =>
      rw [List.flatMap_cons, outline_scopes_append, same, induction, List.flatMap_cons]

theorem ParameterList.outline_scopes (list : ParameterList) :
    outlineScopes (list.outline around) = [] := by
  refine List.filterMap_eq_nil_iff.mpr (List.forall_mem_cons.mpr ⟨rfl, ?_⟩)
  exact List.forall_mem_map.mpr fun decl _ => rfl

theorem FunctionDecl.outline_scopes (decl : FunctionDecl) :
    outlineScopes (decl.outline around) = decl.ownScope.scopes := by
  have own := Stmt.scope_outline_scopes (.function decl :: around) decl.ownScope
  rw [ownScope] at own ⊢
  simp only [outline, List.cons_append, outline_scopes_cons, outline_scopes_append,
    ParameterList.outline_scopes, own]
  rfl

theorem StateMember.outline_scopes (member : StateMember) :
    outlineScopes (member.outline around) = member.body?.toList.flatMap CodeScope.scopes := by
  cases member with
  | handler decl =>
      have own := Stmt.scope_outline_scopes (.handler decl :: around) decl.ownScope
      rw [HandlerDecl.ownScope] at own
      simp only [outline, HandlerDecl.outline, List.cons_append, outline_scopes_cons,
        outline_scopes_append, ParameterList.outline_scopes, own]
      simp [Node.scope?, body?]
  | broken span => rfl

theorem StateDecl.outline_scopes (decl : StateDecl) :
    outlineScopes (decl.outline around) = decl.bodies.flatMap CodeScope.scopes := by
  have members := outline_scopes_flat_map (StateMember.outline_scopes (.state decl :: around))
    decl.members
  rw [outline, outline_scopes_cons, members, bodies, List.filterMap_eq_flatMap_toList,
    List.flatMap_assoc]
  rfl

theorem GlobalDecl.outline_scopes (decl : GlobalDecl) :
    outlineScopes (decl.outline around) = [] := by
  rw [outline, outline_scopes_cons, option_outline_scopes (Expr.outline_scopes _)]
  rfl

end

/-- The scopes of the bodies of a script are the scopes among the nodes of its outline. -/
theorem Script.outline_scopes (script : Script) :
    outlineScopes script.outline = script.bodies.flatMap CodeScope.scopes := by
  have globals : outlineScopes
      (script.globals.flatMap (GlobalDecl.outline [.script script])) = [] := by
    rw [outline_scopes_flat_map (GlobalDecl.outline_scopes _)]
    exact List.flatMap_eq_nil_iff.mpr fun _ _ => rfl
  have functions := outline_scopes_flat_map (FunctionDecl.outline_scopes [.script script])
  have states := outline_scopes_flat_map (StateDecl.outline_scopes [.script script])
  have early : outlineScopes
      (outlineOption (StateDecl.outline [.script script]) script.defaultState) =
        script.defaultState.toList.flatMap (fun decl => decl.bodies.flatMap CodeScope.scopes) := by
    cases script.defaultState with
    | none => rfl
    | some decl => simp [outlineOption, StateDecl.outline_scopes]
  have broken : outlineScopes (script.broken.map fun part =>
      ⟨.broken part.context part.span, [.script script]⟩) = [] :=
    List.filterMap_eq_nil_iff.mpr (List.forall_mem_map.mpr fun part _ => rfl)
  simp only [outline, List.cons_append, outline_scopes_cons, outline_scopes_append, globals,
    functions, early, states, broken]
  rw [bodies, List.flatMap_append, List.flatMap_map, List.flatMap_assoc,
    List.flatMap_append]
  simp only [Node.scope?, Option.toList_none, List.nil_append, List.append_nil,
    List.append_assoc]

end Lsl
