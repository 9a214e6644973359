import Lsl.Proofs.Syntax.Children

/-!
Where the errors of a node come from: text that could not be read, what checking found at the node
itself, or a node directly inside.
-/

set_option autoImplicit false

namespace Lsl

/-- The node stands for something that could not be read. -/
def Node.isBroken : Node → Bool
  | broken _ _ => true
  | _ => false

/-- Checking found something wrong with the node itself. -/
def Node.isMarked : Node → Bool
  | script whole => whole.faulty
  | global decl => decl.faulty
  | function decl => decl.faulty
  | parameter decl => decl.faulty
  | state decl => decl.faulty
  | handler decl => decl.faulty
  | stmt statement => statement.isFaulty
  | expr value => value.info.faulty
  | _ => false

/-- Nothing is wrong with the node itself. -/
def Node.isFresh (node : Node) : Bool := !node.isBroken && !node.isMarked

theorem Node.fresh_iff {node : Node} :
    node.isFresh = true ↔ node.isBroken = false ∧ node.isMarked = false := by
  simp [isFresh]

theorem Node.children_broken {node : Node} (broken : node.isBroken = true) :
    node.children = [] := by
  cases node <;> first | rfl | cases broken

theorem Node.marked_of_broken {node : Node} (broken : node.isBroken = true) :
    node.isMarked = false := by
  cases node <;> first | rfl | cases broken

theorem Expr.list_has_errors_eq (exprs : List Expr) :
    listHasErrors exprs = exprs.any hasErrors := by
  induction exprs with
  | nil => rfl
  | cons expr rest induction => rw [listHasErrors, induction, List.any_cons]

theorem Stmt.node_has_errors (stmt : Stmt) : stmt.node.hasErrors = stmt.hasErrors := by
  cases stmt <;> rfl

theorem Stmt.list_has_errors_eq (body : List Stmt) :
    listHasErrors body = body.any hasErrors := by
  induction body with
  | nil => rfl
  | cons stmt rest induction => rw [listHasErrors, induction, List.any_cons]

theorem StateMember.node_has_errors (member : StateMember) :
    member.node.hasErrors = member.hasErrors := by
  cases member <;> rfl

theorem Alternatives.has_errors_eq (rest : Alternatives) :
    rest.hasErrors = rest.branches.any Node.hasErrors := by
  match rest with
  | .done => rfl
  | .elseIf span condition scope body rest =>
      simp [hasErrors, branches, Node.hasErrors, rest.has_errors_eq]
  | .otherwise span scope body => simp [hasErrors, branches, Node.hasErrors]

/-- Nodes that are made of values have errors where the values have. -/
theorem any_node {α : Type} {node : α → Node} {holds : α → Bool}
    (same : ∀ value, (node value).hasErrors = holds value) (values : List α) :
    (values.map node).any Node.hasErrors = values.any holds := by
  rw [List.any_map]
  exact congrArg values.any (funext same)

theorem option_any_list {α : Type} (holds : α → Bool) (value : Option α) :
    value.toList.any holds = value.any holds := by
  cases value <;> simp

theorem Expr.has_errors_eq (expr : Expr) :
    expr.hasErrors = (expr.info.faulty || expr.children.any Node.hasErrors) := by
  cases expr <;>
    simp [hasErrors, info, children, parts, Node.hasErrors, ExprList.hasErrors, Bool.or_assoc]

theorem Stmt.has_errors_eq {stmt : Stmt} (own : stmt.node = .stmt stmt) :
    stmt.hasErrors = (stmt.isFaulty || stmt.children.any Node.hasErrors) := by
  cases stmt with
  | block | broken => cases own
  | _ =>
      simp [hasErrors, isFaulty, children, Node.hasErrors, Variable.hasErrors, option_any_list,
        Alternatives.has_errors_eq, Function.comp_def, Bool.or_assoc]

theorem Script.has_errors_eq (script : Script) :
    script.hasErrors = (script.faulty || script.children.any Node.hasErrors) := by
  have globals : (script.globals.map Node.global).any Node.hasErrors =
      script.globals.any GlobalDecl.hasErrors := any_node (fun _ => rfl) _
  have functions : (script.functions.map Node.function).any Node.hasErrors =
      script.functions.any FunctionDecl.hasErrors := any_node (fun _ => rfl) _
  have early : (script.defaultState.toList.map Node.state).any Node.hasErrors =
      script.defaultState.any StateDecl.hasErrors :=
    (any_node (fun _ => rfl) _).trans (option_any_list _ _)
  have states : (script.states.map Node.state).any Node.hasErrors =
      script.states.any StateDecl.hasErrors := any_node (fun _ => rfl) _
  have broken : (script.broken.map BrokenPart.node).any Node.hasErrors =
      !script.broken.isEmpty := by
    cases script.broken with
    | nil => rfl
    | cons part rest => simp [BrokenPart.node, Node.hasErrors]
  simp only [hasErrors, children, List.any_append, globals, functions, early, states, broken,
    Bool.or_assoc]

namespace Node

/-- A node has errors if it is broken or marked itself, or if a node directly inside has errors. -/
theorem has_errors_eq {node : Node} (kind : node.isInner = true ∨ node.isScript = true) :
    node.hasErrors = (node.isBroken || node.isMarked || node.children.any hasErrors) := by
  cases node with
  | script whole => exact whole.has_errors_eq
  | state decl =>
      exact congrArg (decl.faulty || ·) (any_node StateMember.node_has_errors decl.members).symm
  | scope info body =>
      exact (Stmt.list_has_errors_eq body).trans (any_node Stmt.node_has_errors body).symm
  | stmt statement =>
      cases statement with
      | block | broken => simp [isInner, isScript] at kind
      | _ => exact Stmt.has_errors_eq rfl
  | expr value => exact value.has_errors_eq
  | _ =>
      simp [hasErrors, isBroken, isMarked, children, GlobalDecl.hasErrors, FunctionDecl.hasErrors,
        HandlerDecl.hasErrors, ParameterList.hasErrors, ExprList.hasErrors, Variable.hasErrors,
        Expr.list_has_errors_eq, option_any_list, Function.comp_def, Bool.or_assoc]

end Node

end Lsl
