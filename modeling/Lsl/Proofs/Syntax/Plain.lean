import Lsl.Proofs.Syntax.Children

/-!
Scripts without what checking finds out about them. Two scripts that are plainly the same have the
same nodes in the same places, with the same nodes around them.
-/

set_option autoImplicit false

namespace Lsl

def ExprInfo.plain (info : ExprInfo) : ExprInfo := { span := info.span }

def StmtInfo.plain (info : StmtInfo) : StmtInfo := { span := info.span }

def ScopeInfo.plain (scope : ScopeInfo) : ScopeInfo := { scope with reach := .live }

mutual

def Expr.plain : Expr → Expr
  | .integer info raw => .integer info.plain raw
  | .hex info raw => .hex info.plain raw
  | .float info raw => .float info.plain raw
  | .string info raw => .string info.plain raw
  | .vector info x y z => .vector info.plain x.plain y.plain z.plain
  | .rotation info x y z s => .rotation info.plain x.plain y.plain z.plain s.plain
  | .list info inner elements => .list info.plain inner (Expr.listPlain elements)
  | .reference info name _ => .reference info.plain name .unresolved
  | .call info name inner arguments _ =>
    .call info.plain name inner (Expr.listPlain arguments) .unresolved
  | .binary info operator left right => .binary info.plain operator left.plain right.plain
  | .prefixed info operator operand => .prefixed info.plain operator operand.plain
  | .postfixed info operator operand => .postfixed info.plain operator operand.plain
  | .cast info target operand => .cast info.plain target operand.plain
  | .grouped info inner => .grouped info.plain inner.plain
  | .component info part target => .component info.plain part target.plain

def Expr.listPlain : List Expr → List Expr
  | [] => []
  | expr :: rest => expr.plain :: Expr.listPlain rest

end

def ExprList.plain (list : ExprList) : ExprList :=
  { list with members := list.members.map Expr.plain }

def Variable.plain (decl : Variable) : Variable :=
  { decl with initializer := decl.initializer.map Expr.plain }

mutual

def Stmt.plain : Stmt → Stmt
  | .block scope body => .block scope.plain (Stmt.listPlain body)
  | .declare info decl => .declare info.plain decl.plain
  | .perform info value => .perform info.plain value.plain
  | .giveBack info value => .giveBack info.plain (value.map Expr.plain)
  | .jump info label _ => .jump info.plain label none
  | .label info name => .label info.plain name
  | .changeState info state _ => .changeState info.plain state none
  | .branch info first condition scope body rest =>
    .branch info.plain first condition.plain scope.plain (Stmt.listPlain body) rest.plain
  | .whileLoop info condition scope body =>
    .whileLoop info.plain condition.plain scope.plain (Stmt.listPlain body)
  | .doLoop info scope body condition =>
    .doLoop info.plain scope.plain (Stmt.listPlain body) condition.plain
  | .forLoop info init condition afterthought scope body =>
    .forLoop info.plain (init.map ExprList.plain) (condition.map Expr.plain)
      (afterthought.map ExprList.plain) scope.plain (Stmt.listPlain body)
  | .empty info => .empty info.plain
  | .broken span => .broken span

def Stmt.listPlain : List Stmt → List Stmt
  | [] => []
  | stmt :: rest => stmt.plain :: Stmt.listPlain rest

def Alternatives.plain : Alternatives → Alternatives
  | .done => .done
  | .elseIf span condition scope body rest =>
    .elseIf span condition.plain scope.plain (Stmt.listPlain body) rest.plain
  | .otherwise span scope body => .otherwise span scope.plain (Stmt.listPlain body)

end

def GlobalDecl.plain (global : GlobalDecl) : GlobalDecl :=
  { global with decl := global.decl.plain, faulty := false }

def ParameterDecl.plain (decl : ParameterDecl) : ParameterDecl := { decl with faulty := false }

def ParameterList.plain (list : ParameterList) : ParameterList :=
  { list with members := list.members.map ParameterDecl.plain }

def FunctionDecl.plain (decl : FunctionDecl) : FunctionDecl :=
  { decl with
    parameters := decl.parameters.plain
    scope := decl.scope.plain
    body := Stmt.listPlain decl.body
    faulty := false }

def HandlerDecl.plain (decl : HandlerDecl) : HandlerDecl :=
  { decl with
    parameters := decl.parameters.plain
    scope := decl.scope.plain
    body := Stmt.listPlain decl.body
    faulty := false }

def StateMember.plain : StateMember → StateMember
  | .handler decl => .handler decl.plain
  | .broken span => .broken span

def StateDecl.plain (decl : StateDecl) : StateDecl :=
  { decl with members := decl.members.map StateMember.plain, faulty := false }

def Script.plain (script : Script) : Script :=
  { script with
    globals := script.globals.map GlobalDecl.plain
    functions := script.functions.map FunctionDecl.plain
    defaultState := script.defaultState.map StateDecl.plain
    states := script.states.map StateDecl.plain
    uses := []
    faulty := false }

def Node.plain : Node → Node
  | script whole => .script whole.plain
  | global decl => .global decl.plain
  | function decl => .function decl.plain
  | parameters list => .parameters list.plain
  | parameter decl => .parameter decl.plain
  | state decl => .state decl.plain
  | handler decl => .handler decl.plain
  | scope info body => .scope info.plain (Stmt.listPlain body)
  | stmt statement => .stmt statement.plain
  | ifBranch span condition inner body =>
    .ifBranch span condition.plain inner.plain (Stmt.listPlain body)
  | elseIfBranch span condition inner body =>
    .elseIfBranch span condition.plain inner.plain (Stmt.listPlain body)
  | elseBranch span inner body => .elseBranch span inner.plain (Stmt.listPlain body)
  | expr value => .expr value.plain
  | exprList role list => .exprList role list.plain
  | broken context span => .broken context span

/-- The place of a node, as it is without what was found out about any node. -/
def Occurrence.plain (occurrence : Occurrence) : Occurrence :=
  ⟨occurrence.node.plain, occurrence.around.map Node.plain⟩

theorem Expr.list_plain_eq (exprs : List Expr) : listPlain exprs = exprs.map plain := by
  induction exprs with
  | nil => rfl
  | cons expr rest induction => rw [listPlain, induction, List.map_cons]

theorem Stmt.list_plain_eq (body : List Stmt) : listPlain body = body.map plain := by
  induction body with
  | nil => rfl
  | cons stmt rest induction => rw [listPlain, induction, List.map_cons]

theorem Expr.children_plain (expr : Expr) : expr.plain.children = expr.children.map Node.plain := by
  cases expr <;> simp [plain, children, parts, Node.plain, ExprList.plain, list_plain_eq]

theorem Alternatives.branches_plain (rest : Alternatives) :
    rest.plain.branches = rest.branches.map Node.plain := by
  match rest with
  | .done => rfl
  | .elseIf span condition scope body rest =>
      simp [plain, branches, rest.branches_plain, Node.plain]
  | .otherwise span scope body => simp [plain, branches, Node.plain]

theorem Stmt.node_plain (stmt : Stmt) : stmt.plain.node = stmt.node.plain := by
  cases stmt <;> simp [plain, node, Node.plain]

theorem Stmt.children_plain (stmt : Stmt) : stmt.plain.children = stmt.children.map Node.plain := by
  cases stmt with
  | declare info decl =>
      cases given : decl.initializer <;> simp [plain, children, Node.plain, Variable.plain, given]
  | giveBack info value => cases value <;> simp [plain, children, Node.plain]
  | branch info first condition scope body rest =>
      simp [plain, children, Node.plain, rest.branches_plain]
  | forLoop info init condition afterthought scope body =>
      cases init <;> cases condition <;> cases afterthought <;> simp [plain, children, Node.plain]
  | _ => simp [plain, children, Node.plain]

theorem StateMember.node_plain (member : StateMember) : member.plain.node = member.node.plain := by
  cases member <;> rfl

/-- The children of a node stay its children. -/
theorem Node.children_plain (node : Node) : node.plain.children = node.children.map plain := by
  cases node with
  | script whole =>
      cases default : whole.defaultState <;>
        simp [plain, children, Script.plain, Script.children, BrokenPart.node, default,
          Function.comp_def]
  | global decl =>
      cases given : decl.decl.initializer <;>
        simp [plain, children, GlobalDecl.plain, Variable.plain, given]
  | parameters list => simp [plain, children, ParameterList.plain, Function.comp_def]
  | state decl =>
      simp [plain, children, StateDecl.plain, Function.comp_def, StateMember.node_plain]
  | scope info body =>
      simp [plain, children, Stmt.list_plain_eq, Function.comp_def, Stmt.node_plain]
  | stmt statement => exact statement.children_plain
  | expr value => exact value.children_plain
  | exprList role list => simp [plain, children, ExprList.plain, Function.comp_def]
  | _ => simp [plain, children, FunctionDecl.plain, HandlerDecl.plain]

theorem Node.is_script_plain (node : Node) : node.plain.isScript = node.isScript := by
  cases node <;> rfl

@[simp] theorem Node.span_plain (node : Node) : node.plain.span = node.span := by
  cases node with
  | stmt statement => cases statement <;> rfl
  | expr value => cases value <;> rfl
  | _ => rfl

/-- What does not depend on what was found out holds all over a node or all over the plain one. -/
theorem Node.throughout_plain {holds : Node → Prop}
    (plain : ∀ node : Node, holds node.plain ↔ holds node) (node : Node) :
    node.plain.Throughout holds ↔ node.Throughout holds := by
  induction node using Node.children_induction with
  | step node induction =>
      constructor
      · intro throughout
        refine .intro ((plain node).mp throughout.self) fun child member => ?_
        refine (induction child member).mp (throughout.child ?_)
        rw [node.children_plain]
        exact List.mem_map_of_mem member
      · intro throughout
        refine .intro ((plain node).mpr throughout.self) ?_
        rw [node.children_plain, List.forall_mem_map]
        exact fun child member => (induction child member).mpr (throughout.child member)

/-- Where the nodes of a plain node are, and what is around them. -/
theorem Node.outline_plain (node : Node) (around : List Node)
    (root : node.isScript = true → around = []) :
    node.plain.outline (around.map plain) = (node.outline around).map Occurrence.plain := by
  induction node using Node.children_induction generalizing around with
  | step node induction =>
      have top : node.plain.isScript = true → around.map plain = [] := by
        intro script
        rw [root (node.is_script_plain ▸ script), List.map_nil]
      have below : ∀ child ∈ node.children,
          child.plain.outline (node.plain :: around.map plain) =
            (child.outline (node :: around)).map Occurrence.plain := by
        intro child member
        refine induction child member (node :: around) ?_
        simp [node.children_part child member]
      rw [outline_eq node.plain _ top, outline_eq node around root, children_plain,
        List.flatMap_map, List.map_cons, List.map_flatMap, List.flatMap_congr below]
      rfl

theorem Script.outline_plain (script : Script) :
    script.plain.outline = script.outline.map Occurrence.plain :=
  Node.outline_plain (.script script) [] fun _ => rfl

end Lsl
