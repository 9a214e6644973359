import Lsl.Proofs.Syntax.Outline

/-!
The nodes directly inside of a node, in the order in which they are kept. An outline is a node and
then the outlines of its children, so what holds from a node down holds all over its outline.
-/

set_option autoImplicit false

namespace Lsl

def Expr.children : Expr → List Node
  | .list _ inner elements => [.exprList .elements ⟨inner, elements⟩]
  | .call _ _ inner arguments _ => [.exprList .arguments ⟨inner, arguments⟩]
  | expr => expr.parts.map .expr

/-- The node of a statement. A block is no more than its scope. -/
def Stmt.node : Stmt → Node
  | .block scope body => .scope scope body
  | .broken span => .broken .statement span
  | stmt => .stmt stmt

/-- The branches behind the first one. -/
def Alternatives.branches : Alternatives → List Node
  | .done => []
  | .elseIf span condition scope body rest =>
    .elseIfBranch span condition scope body :: rest.branches
  | .otherwise span scope body => [.elseBranch span scope body]

def Stmt.children : Stmt → List Node
  | .declare _ decl => decl.initializer.toList.map .expr
  | .perform _ value => [.expr value]
  | .giveBack _ value => value.toList.map .expr
  | .branch _ first condition scope body rest =>
    .ifBranch first condition scope body :: rest.branches
  | .whileLoop _ condition scope body => [.expr condition, .scope scope body]
  | .doLoop _ scope body condition => [.scope scope body, .expr condition]
  | .forLoop _ init condition afterthought scope body =>
    init.toList.map (.exprList .loopInit) ++ condition.toList.map .expr ++
      afterthought.toList.map (.exprList .loopAfterthought) ++ [.scope scope body]
  | _ => []

def StateMember.node : StateMember → Node
  | .handler decl => .handler decl
  | .broken span => .broken .handler span

def BrokenPart.node (part : BrokenPart) : Node := .broken part.context part.span

def Script.children (script : Script) : List Node :=
  script.globals.map .global ++ script.functions.map .function ++
    script.defaultState.toList.map .state ++ script.states.map .state ++
    script.broken.map BrokenPart.node

namespace Node

def children : Node → List Node
  | script whole => whole.children
  | global decl => decl.decl.initializer.toList.map .expr
  | function decl => [.parameters decl.parameters, .scope decl.scope decl.body]
  | parameters list => list.members.map .parameter
  | parameter _ => []
  | state decl => decl.members.map StateMember.node
  | handler decl => [.parameters decl.parameters, .scope decl.scope decl.body]
  | scope _ body => body.map Stmt.node
  | stmt statement => statement.children
  | ifBranch _ condition inner body => [.expr condition, .scope inner body]
  | elseIfBranch _ condition inner body => [.expr condition, .scope inner body]
  | elseBranch _ inner body => [.scope inner body]
  | expr value => value.children
  | exprList _ list => list.members.map .expr
  | broken _ _ => []

def isScript : Node → Bool
  | script _ => true
  | _ => false

/-- The node may stand inside of others. Blocks and broken statements do not have the nodes of
statements. -/
def isInner : Node → Bool
  | script _ => false
  | stmt (.block _ _) => false
  | stmt (.broken _) => false
  | _ => true

/-- The outline of the part of a script that a node is. -/
def outline (around : List Node) : Node → List Occurrence
  | script whole => whole.outline
  | global decl => decl.outline around
  | function decl => decl.outline around
  | parameters list => list.outline around
  | parameter decl => [⟨.parameter decl, around⟩]
  | state decl => decl.outline around
  | handler decl => decl.outline around
  | scope info body => Stmt.scopeOutline around info body
  | stmt (.block info body) => [⟨.stmt (.block info body), around⟩]
  | stmt (.broken span) => [⟨.stmt (.broken span), around⟩]
  | stmt statement => statement.outline around
  | ifBranch span condition inner body =>
    let here := ifBranch span condition inner body
    ⟨here, around⟩ :: condition.outline (here :: around) ++
      Stmt.scopeOutline (here :: around) inner body
  | elseIfBranch span condition inner body =>
    let here := elseIfBranch span condition inner body
    ⟨here, around⟩ :: condition.outline (here :: around) ++
      Stmt.scopeOutline (here :: around) inner body
  | elseBranch span inner body =>
    let here := elseBranch span inner body
    ⟨here, around⟩ :: Stmt.scopeOutline (here :: around) inner body
  | expr value => value.outline around
  | exprList role list => list.outline around role
  | broken context span => [⟨.broken context span, around⟩]

end Node

theorem Stmt.outline_node (stmt : Stmt) (around : List Node) :
    stmt.node.outline around = stmt.outline around := by
  cases stmt <;> rfl

theorem Alternatives.outline_branches (rest : Alternatives) (around : List Node) :
    rest.outline around = rest.branches.flatMap (Node.outline around) := by
  match rest with
  | .done => rfl
  | .elseIf span condition scope body rest =>
      simp [outline, branches, rest.outline_branches around, Node.outline, Stmt.scopeOutline]
  | .otherwise span scope body => simp [outline, branches, Node.outline, Stmt.scopeOutline]

section

variable {around : List Node}

theorem outline_option {α : Type} (node : α → Node) (outline : α → List Occurrence)
    (same : ∀ value, (node value).outline around = outline value) (value : Option α) :
    outlineOption outline value = (value.toList.map node).flatMap (Node.outline around) := by
  cases value with
  | none => rfl
  | some value => simp [outlineOption, same]

theorem outline_each {α : Type} (node : α → Node) (outline : α → List Occurrence)
    (same : ∀ value, (node value).outline around = outline value) (values : List α) :
    values.flatMap outline = (values.map node).flatMap (Node.outline around) := by
  induction values with
  | nil => rfl
  | cons value rest induction => simp [induction, same]

theorem Expr.outline_exprs (around : List Node) (exprs : List Expr) :
    Expr.listOutline around exprs = (exprs.map Node.expr).flatMap (Node.outline around) := by
  rw [Expr.list_outline_eq]
  exact outline_each .expr _ (fun _ => rfl) exprs

theorem Stmt.outline_stmts (around : List Node) (body : List Stmt) :
    Stmt.listOutline around body = (body.map Stmt.node).flatMap (Node.outline around) := by
  rw [Stmt.list_outline_eq]
  exact outline_each Stmt.node _ (fun stmt => stmt.outline_node around) body

end

theorem Expr.outline_children (expr : Expr) (around : List Node) :
    expr.outline around =
      ⟨.expr expr, around⟩ :: expr.children.flatMap (Node.outline (.expr expr :: around)) := by
  cases expr with
  | list info inner elements | call info name inner elements target =>
      simp [outline, children, Node.outline, ExprList.outline]
  | _ => simp [outline, children, Expr.parts, Node.outline]

theorem Stmt.outline_children {stmt : Stmt} (own : stmt.node = .stmt stmt) (around : List Node) :
    stmt.outline around =
      ⟨.stmt stmt, around⟩ :: stmt.children.flatMap (Node.outline (.stmt stmt :: around)) := by
  have expr (around : List Node) (value : Option Expr) :
      outlineOption (Expr.outline around) value =
        (value.toList.map Node.expr).flatMap (Node.outline around) :=
    outline_option .expr _ (fun _ => rfl) value
  have list (role : ListRole) (around : List Node) (value : Option ExprList) :
      outlineOption (ExprList.outline around role) value =
        (value.toList.map (Node.exprList role)).flatMap (Node.outline around) :=
    outline_option (.exprList role) _ (fun _ => rfl) value
  cases stmt with
  | block | broken => cases own
  | declare info decl => simp only [outline, children, expr]
  | giveBack info value => simp only [outline, children, expr]
  | branch info first condition scope body rest =>
      simp [outline, children, Node.outline, Stmt.scopeOutline, Alternatives.outline_branches]
  | forLoop info init condition afterthought scope body =>
      simp [outline, children, Node.outline, Stmt.scopeOutline, expr, list]
  | _ => simp [outline, children, Node.outline, Stmt.scopeOutline]

theorem Script.outline_children (script : Script) :
    script.outline =
      ⟨.script script, []⟩ :: script.children.flatMap (Node.outline [.script script]) := by
  have broken (parts : List BrokenPart) (around : List Node) :
      (parts.map fun part => (⟨.broken part.context part.span, around⟩ : Occurrence)) =
        (parts.map BrokenPart.node).flatMap (Node.outline around) := by
    induction parts with
    | nil => rfl
    | cons part rest induction => simp [induction, BrokenPart.node, Node.outline]
  simp only [outline, children, List.flatMap_append, broken, List.cons_append]
  rw [outline_each .global (GlobalDecl.outline [.script script]) (fun _ => rfl),
    outline_each .function (FunctionDecl.outline [.script script]) (fun _ => rfl),
    outline_each .state (StateDecl.outline [.script script]) (fun _ => rfl),
    outline_option .state (StateDecl.outline [.script script]) (fun _ => rfl)]

theorem Node.outline_eq (node : Node) (around : List Node)
    (root : node.isScript = true → around = []) :
    node.outline around =
      ⟨node, around⟩ :: node.children.flatMap (outline (node :: around)) := by
  have listed (list : ParameterList) (around : List Node) : list.outline around =
      ⟨.parameters list, around⟩ ::
        (list.members.map Node.parameter).flatMap (outline (.parameters list :: around)) := by
    rw [ParameterList.outline, List.flatMap_map, List.map_eq_flatMap]
    rfl
  cases node with
  | script whole =>
      rw [root rfl]
      exact whole.outline_children
  | global decl =>
      simp only [outline, GlobalDecl.outline, children]
      rw [outline_option .expr (Expr.outline (.global decl :: around)) (fun _ => rfl)]
  | parameters list => exact listed list around
  | state decl =>
      simp only [outline, StateDecl.outline, children]
      rw [outline_each StateMember.node]
      intro member
      cases member <;> rfl
  | scope info body => simp [outline, children, Stmt.scopeOutline, Stmt.outline_stmts]
  | stmt statement =>
      cases statement with
      | block | broken => rfl
      | _ => exact Stmt.outline_children rfl around
  | expr value => exact value.outline_children around
  | exprList role list => simp [outline, children, ExprList.outline, Expr.outline_exprs]
  | _ => simp [outline, children, FunctionDecl.outline, HandlerDecl.outline]

theorem Node.part_of_inner {node : Node} (inner : node.isInner = true) : node.isScript = false := by
  cases node <;> first | rfl | cases inner

theorem Alternatives.branches_inner (rest : Alternatives) :
    ∀ child ∈ rest.branches, child.isInner = true := by
  match rest with
  | .done => simp [branches]
  | .elseIf span condition scope body rest =>
      exact List.forall_mem_cons.mpr ⟨rfl, rest.branches_inner⟩
  | .otherwise span scope body => simp [branches, Node.isInner]

theorem Stmt.node_inner (stmt : Stmt) : stmt.node.isInner = true := by
  cases stmt <;> rfl

theorem StateMember.node_inner (member : StateMember) : member.node.isInner = true := by
  cases member <;> rfl

theorem Node.children_inner (node : Node) : ∀ child ∈ node.children, child.isInner = true := by
  cases node with
  | script whole =>
      simp only [children, Script.children, List.forall_mem_append, List.forall_mem_map]
      exact ⟨⟨⟨⟨fun _ _ => rfl, fun _ _ => rfl⟩, fun _ _ => rfl⟩, fun _ _ => rfl⟩, fun _ _ => rfl⟩
  | state decl => exact List.forall_mem_map.mpr fun member _ => member.node_inner
  | scope info body => exact List.forall_mem_map.mpr fun stmt _ => stmt.node_inner
  | stmt statement =>
      cases statement with
      | branch info first condition scope body rest =>
          exact List.forall_mem_cons.mpr ⟨rfl, rest.branches_inner⟩
      | forLoop info init condition afterthought scope body =>
          simp only [children, Stmt.children, List.forall_mem_append, List.forall_mem_map,
            List.forall_mem_singleton]
          exact ⟨⟨⟨fun _ _ => rfl, fun _ _ => rfl⟩, fun _ _ => rfl⟩, rfl⟩
      | _ => simp [children, Stmt.children, isInner]
  | expr value => cases value <;> simp [children, Expr.children, isInner]
  | _ => simp [children, isInner]

/-- Only the root is a whole script. -/
theorem Node.children_part (node : Node) : ∀ child ∈ node.children, child.isScript = false :=
  fun child member => part_of_inner (node.children_inner child member)

/-- What holds of a node as soon as it holds of its children holds of every node: outlines get
shorter from a node to its children. -/
theorem Node.children_induction {motive : Node → Prop}
    (step : ∀ node : Node, (∀ child ∈ node.children, motive child) → motive node) (node : Node) :
    motive node := by
  suffices general : ∀ size (node : Node) around, (node.isScript = true → around = []) →
      (node.outline around).length ≤ size → motive node by
    exact general _ node [] (fun _ => rfl) (Nat.le_refl _)
  intro size
  induction size with
  | zero =>
      intro node around root bound
      rw [node.outline_eq around root] at bound
      simp at bound
  | succ size induction =>
      intro node around root bound
      apply step
      intro child member
      refine induction child (node :: around) (by simp [node.children_part child member]) ?_
      have inside := (List.sublist_flatten_of_mem
        (List.mem_map_of_mem (f := outline (node :: around)) member)).length_le
      rw [node.outline_eq around root, List.length_cons, List.flatMap] at bound
      omega

/-- The node and all nodes below it hold. -/
inductive Node.Throughout (holds : Node → Prop) : Node → Prop
  | intro {node : Node} (here : holds node)
      (below : ∀ child ∈ node.children, Throughout holds child) : Throughout holds node

theorem Node.Throughout.self {holds : Node → Prop} {node : Node}
    (throughout : node.Throughout holds) : holds node := by
  cases throughout with
  | intro here below => exact here

theorem Node.Throughout.child {holds : Node → Prop} {node child : Node}
    (throughout : node.Throughout holds) (member : child ∈ node.children) :
    child.Throughout holds := by
  cases throughout with
  | intro here below => exact below child member

/-- What holds throughout a node holds throughout all that is below it. -/
theorem Node.Throughout.downward {holds : Node → Prop} {node : Node}
    (throughout : node.Throughout holds) (around : List Node)
    (root : node.isScript = true → around = []) :
    ∀ occurrence ∈ node.outline around, occurrence.node.Throughout holds := by
  induction throughout generalizing around with
  | @intro node here below induction =>
      intro occurrence member
      rw [Node.outline_eq node around root] at member
      rcases List.mem_cons.mp member with rfl | member
      · exact .intro here below
      · obtain ⟨child, inside, member⟩ := List.mem_flatMap.mp member
        refine induction child inside _ ?_ occurrence member
        simp [node.children_part child inside]

theorem Node.Throughout.outline {holds : Node → Prop} {node : Node}
    (throughout : node.Throughout holds) (around : List Node)
    (root : node.isScript = true → around = []) :
    ∀ occurrence ∈ node.outline around, holds occurrence.node :=
  fun occurrence member => (throughout.downward around root occurrence member).self

/-- In an expression are expressions and lists of them. -/
theorem Expr.throughout {holds : Node → Prop} (exprs : ∀ expr, holds (.expr expr))
    (lists : ∀ role list, holds (.exprList role list)) (expr : Expr) :
    (Node.expr expr).Throughout holds := by
  induction expr using parts_induction with
  | step expr induction =>
      refine .intro (exprs expr) ?_
      cases expr with
      | list | call =>
          intro child member
          obtain rfl := List.mem_singleton.mp member
          exact .intro (lists _ _) (List.forall_mem_map.mpr induction)
      | _ => exact List.forall_mem_map.mpr induction

theorem ExprList.throughout {holds : Node → Prop} (exprs : ∀ expr, holds (.expr expr))
    (lists : ∀ role list, holds (.exprList role list)) (role : ListRole) (list : ExprList) :
    (Node.exprList role list).Throughout holds :=
  .intro (lists role list) (List.forall_mem_map.mpr fun expr _ => expr.throughout exprs lists)

theorem Node.throughout_of_outline {holds : Node → Prop} {node : Node} {around : List Node}
    (root : node.isScript = true → around = [])
    (all : ∀ occurrence ∈ node.outline around, holds occurrence.node) : node.Throughout holds := by
  induction node using Node.children_induction generalizing around with
  | step node induction =>
      rw [outline_eq node around root] at all
      obtain ⟨here, below⟩ := List.forall_mem_cons.mp all
      refine .intro here fun child member => ?_
      refine @induction child member (node :: around) (by simp [node.children_part child member]) ?_
      exact fun occurrence inside => below occurrence (List.mem_flatMap.mpr ⟨child, member, inside⟩)

end Lsl
