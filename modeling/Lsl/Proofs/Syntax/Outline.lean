import Lsl.Proofs.Syntax.Bodies
import Lsl.Syntax.Outline

/-!
An error at a node is an error of every node around it, and the expressions that occur in a script
are those of its globals and bodies and whatever stands inside of them.
-/

set_option autoImplicit false

namespace Lsl

/-- What an outline keeps to: with an error at one of its nodes there is one at all nodes around that
node, those around the outline left to what holds the outlined thing, and its expressions are among
those of that thing. -/
def Outlines (flagged : Prop) (owned : Expr → Prop) (around : List Node)
    (outline : List Occurrence) : Prop :=
  ∀ occurrence ∈ outline,
    (occurrence.node.hasErrors = true →
      flagged ∧ ∀ outer ∈ occurrence.around, outer ∈ around ∨ outer.hasErrors = true) ∧
    ∀ expr, occurrence.node = .expr expr → owned expr

namespace Outlines

variable {flagged : Prop} {owned : Expr → Prop} {around : List Node}
  {first second : List Occurrence}

theorem mono {weaker : Prop} {more : Expr → Prop} (outlines : Outlines flagged owned around first)
    (implied : flagged → weaker) (inside : ∀ expr, owned expr → more expr) :
    Outlines weaker more around first := by
  intro occurrence member
  obtain ⟨rises, known⟩ := outlines occurrence member
  exact ⟨fun wrong => ⟨implied (rises wrong).1, (rises wrong).2⟩,
    fun expr same => inside expr (known expr same)⟩

theorem nil : Outlines flagged owned around [] := by
  intro occurrence member
  cases member

theorem append (front : Outlines flagged owned around first)
    (back : Outlines flagged owned around second) :
    Outlines flagged owned around (first ++ second) := by
  intro occurrence member
  exact (List.mem_append.mp member).elim (front occurrence) (back occurrence)

theorem flat_map {α : Type} {list : List α} {outline : α → List Occurrence}
    (each : ∀ value ∈ list, Outlines flagged owned around (outline value)) :
    Outlines flagged owned around (list.flatMap outline) := by
  intro occurrence member
  obtain ⟨value, inside, member⟩ := List.mem_flatMap.mp member
  exact each value inside occurrence member

/-- A node stands around all that is inside of it. -/
theorem node (here : Node) (known : ∀ expr, here = .expr expr → owned expr)
    (inside : Outlines (here.hasErrors = true) owned (here :: around) first) :
    Outlines (here.hasErrors = true) owned around (⟨here, around⟩ :: first) := by
  intro occurrence member
  rcases List.mem_cons.mp member with rfl | member
  · exact ⟨fun wrong => ⟨wrong, fun outer inside => .inl inside⟩, known⟩
  · obtain ⟨rises, known⟩ := inside occurrence member
    refine ⟨fun wrong => ⟨(rises wrong).1, ?_⟩, known⟩
    intro outer member
    rcases (rises wrong).2 outer member with inside | raised
    · rcases List.mem_cons.mp inside with rfl | inside
      · exact .inr (rises wrong).1
      · exact .inl inside
    · exact .inr raised

theorem option {α : Type} {value : Option α} {outline : α → List Occurrence}
    (each : ∀ given ∈ value, Outlines flagged owned around (outline given)) :
    Outlines flagged owned around (outlineOption outline value) := by
  cases value with
  | none => exact .nil
  | some given => exact each given rfl

end Outlines

theorem Expr.list_outline_eq (around : List Node) (exprs : List Expr) :
    Expr.listOutline around exprs = exprs.flatMap (Expr.outline around) := by
  induction exprs with
  | nil => rfl
  | cons expr rest induction => rw [Expr.listOutline, induction, List.flatMap_cons]

theorem Stmt.list_outline_eq (around : List Node) (body : List Stmt) :
    Stmt.listOutline around body = body.flatMap (Stmt.outline around) := by
  induction body with
  | nil => rfl
  | cons stmt rest induction => rw [Stmt.listOutline, induction, List.flatMap_cons]

namespace Expr

theorem flagged_of_parts {expr : Expr} (wrong : listHasErrors expr.parts = true) :
    expr.hasErrors = true := by
  by_contra clean
  have fine := list_has_errors_iff.mpr (has_errors_iff.mp (Bool.not_eq_true _ ▸ clean)).2
  rw [wrong] at fine
  cases fine

theorem outlines_list {exprs : List Expr} {around : List Node}
    (each : ∀ expr ∈ exprs, Outlines (expr.hasErrors = true) (· ∈ expr.nodes) around
      (expr.outline around)) :
    Outlines (listHasErrors exprs = true) (· ∈ exprs.flatMap nodes) around
      (exprs.flatMap (outline around)) := by
  refine .flat_map fun expr member => (each expr member).mono ?_ ?_
  · intro wrong
    by_contra clean
    have fine := list_has_errors_iff.mp (Bool.not_eq_true _ ▸ clean) expr member
    rw [wrong] at fine
    cases fine
  · exact fun node inside => List.mem_flatMap.mpr ⟨expr, member, inside⟩

theorem outlines (expr : Expr) (around : List Node) :
    Outlines (expr.hasErrors = true) (· ∈ expr.nodes) around (expr.outline around) := by
  induction expr using parts_induction generalizing around with
  | step expr parts =>
      have here : ∀ found, Node.expr expr = .expr found → found ∈ expr.nodes := by
        rintro found ⟨⟩
        exact mem_nodes_self expr
      have inner (around : List Node) : Outlines (listHasErrors expr.parts = true)
          (· ∈ expr.nodes) around (expr.parts.flatMap (outline around)) :=
        (outlines_list fun part member => parts part member around).mono id fun node inside => by
          rw [nodes_eq]
          exact List.mem_cons_of_mem _ inside
      have whole : Outlines (expr.hasErrors = true) (· ∈ expr.nodes) around
          (⟨.expr expr, around⟩ :: expr.parts.flatMap (outline (.expr expr :: around))) :=
        .node _ here ((inner _).mono flagged_of_parts fun _ inside => inside)
      -- Elements and arguments have a node of their own around them.
      have listed (role : ListRole) (span : Span) (around : List Node) :
          Outlines (expr.hasErrors = true) (· ∈ expr.nodes) around
            (⟨.exprList role ⟨span, expr.parts⟩, around⟩ ::
              expr.parts.flatMap (outline (.exprList role ⟨span, expr.parts⟩ :: around))) :=
        (Outlines.node (.exprList role ⟨span, expr.parts⟩) (by simp)
          (inner _)).mono flagged_of_parts fun _ inside => inside
      cases expr with
      | integer | hex | float | string | reference => exact whole
      | list info span elements | call info name span elements target =>
          rw [outline, list_outline_eq]
          exact .node _ here (listed _ span _)
      | _ => simpa only [outline, Expr.parts, List.flatMap_cons, List.flatMap_nil, List.append_nil,
          List.cons_append, List.append_assoc] using whole

end Expr

theorem ExprList.outlines (role : ListRole) (list : ExprList) (around : List Node) :
    Outlines (list.hasErrors = true) (· ∈ list.members.flatMap Expr.nodes) around
      (list.outline around role) := by
  rw [ExprList.outline, Expr.list_outline_eq]
  exact .node (.exprList role list) (by simp)
    (Expr.outlines_list fun expr _ => expr.outlines _)

section

variable {owned : Expr → Prop}

/-- An expression is among those owned. -/
theorem outlines_expr {flagged : Prop} {expr : Expr} (known : ∀ node ∈ expr.nodes, owned node)
    (implied : expr.hasErrors = true → flagged) (around : List Node) :
    Outlines flagged owned around (expr.outline around) :=
  (expr.outlines around).mono implied known

theorem outlines_scope {flagged : Prop} (scope : CodeScope)
    (inside : ∀ around, Outlines (Stmt.listHasErrors scope.body = true) owned around
      (Stmt.listOutline around scope.body))
    (implied : Stmt.listHasErrors scope.body = true → flagged) (around : List Node) :
    Outlines flagged owned around (Stmt.scopeOutline around scope.info scope.body) :=
  (Outlines.node (.scope scope.info scope.body) (by simp) (inside _)).mono
    implied fun _ owned => owned

theorem Alternatives.outlines {rest : Alternatives}
    (conditions : ∀ expr ∈ rest.conditions, ∀ node ∈ expr.nodes, owned node)
    (parts : ∀ part ∈ rest.parts, ∀ around,
      Outlines (Stmt.listHasErrors part.body = true) owned around
        (Stmt.listOutline around part.body)) (around : List Node) :
    Outlines (rest.hasErrors = true) owned around (rest.outline around) := by
  match rest with
  | .done => exact .nil
  | .elseIf span condition scope body rest =>
      have others := Alternatives.outlines
        (fun expr member => conditions expr (List.mem_cons_of_mem _ member))
        (fun part member => parts part (List.mem_cons_of_mem _ member)) around
      have here := Outlines.node (.elseIfBranch span condition scope body)
        (by simp)
        (.append
          (outlines_expr (conditions condition List.mem_cons_self)
            (fun wrong => by simp [Node.hasErrors, wrong]) (_ :: around))
          (outlines_scope ⟨scope, body⟩ (parts ⟨scope, body⟩ List.mem_cons_self)
            (fun wrong => by simp [Node.hasErrors, wrong]) (_ :: around)))
      refine .append (here.mono ?_ fun _ owned => owned) (others.mono ?_ fun _ owned => owned)
      · intro wrong
        simp only [Node.hasErrors] at wrong
        simp only [Alternatives.hasErrors, wrong, Bool.true_or]
      · intro wrong
        simp only [Alternatives.hasErrors, wrong, Bool.or_true]
  | .otherwise span scope body =>
      exact .node (.elseBranch span scope body) (by simp)
        (outlines_scope ⟨scope, body⟩ (parts ⟨scope, body⟩ List.mem_cons_self) id _)

namespace Stmt

/-- The expressions and scopes of a statement make up what is inside of it. -/
theorem outlines_of_parts {stmt : Stmt}
    (exprs : ∀ expr ∈ stmt.exprs, ∀ node ∈ expr.nodes, owned node)
    (parts : ∀ part ∈ stmt.parts, ∀ around,
      Outlines (listHasErrors part.body = true) owned around (listOutline around part.body))
    (around : List Node) :
    Outlines (stmt.hasErrors = true) owned around (stmt.outline around) := by
  have expr (expr : Expr) (member : expr ∈ stmt.exprs) (around : List Node) :
      Outlines (stmt.hasErrors = true) owned around (expr.outline around) := by
    refine outlines_expr (exprs expr member) (fun wrong => ?_) around
    by_contra clean
    have fine := (has_errors_iff.mp (Bool.not_eq_true _ ▸ clean)).2.1 expr member
    rw [wrong] at fine
    cases fine
  have scope (part : CodeScope) (member : part ∈ stmt.parts) (around : List Node) :
      Outlines (stmt.hasErrors = true) owned around
        (scopeOutline around part.info part.body) := by
    refine outlines_scope part (parts part member) (fun wrong => ?_) around
    by_contra clean
    have fine := (has_errors_iff.mp (Bool.not_eq_true _ ▸ clean)).2.2 part member
    rw [wrong] at fine
    cases fine
  have list (role : ListRole) (list : Option ExprList) (among : listExprs list ⊆ stmt.exprs)
      (around : List Node) : Outlines (stmt.hasErrors = true) owned around
        (outlineOption (ExprList.outline around role) list) := by
    refine .option fun given found => (given.outlines role around).mono (fun wrong => ?_) ?_
    · obtain rfl := found
      by_contra clean
      have clear := (has_errors_iff.mp (Bool.not_eq_true _ ▸ clean)).2.1
      have fine : given.hasErrors = false :=
        Expr.list_has_errors_iff.mpr fun expr member => clear expr (among member)
      rw [fine] at wrong
      cases wrong
    · obtain rfl := found
      intro node inside
      obtain ⟨expr, member, inside⟩ := List.mem_flatMap.mp inside
      exact exprs expr (among member) node inside
  cases stmt with
  | block info body => exact outlines_scope ⟨info, body⟩ (parts _ List.mem_cons_self) id around
  | declare info decl =>
      refine .node (.stmt (.declare info decl)) (by simp) (.option ?_)
      exact fun value given => expr value (Option.mem_toList.mpr given) _
  | perform info value =>
      exact .node (.stmt (.perform info value)) (by simp)
        (expr value List.mem_cons_self _)
  | giveBack info value =>
      refine .node (.stmt (.giveBack info value)) (by simp) (.option ?_)
      exact fun value given => expr value (Option.mem_toList.mpr given) _
  | jump | label | changeState | empty =>
      exact .node (.stmt _) (by simp) .nil
  | broken span => exact .node (.broken .statement span) (by simp) .nil
  | branch info first condition inner body rest =>
      have own (around : List Node) := Outlines.node (.ifBranch first condition inner body)
        (by simp)
        (.append
          (outlines_expr (exprs condition List.mem_cons_self)
            (fun wrong => by simp [Node.hasErrors, wrong]) (_ :: around))
          (outlines_scope ⟨inner, body⟩ (parts ⟨inner, body⟩ List.mem_cons_self)
            (fun wrong => by simp [Node.hasErrors, wrong]) (_ :: around)))
      have others := Alternatives.outlines
        (fun expr member => exprs expr (List.mem_cons_of_mem _ member))
        (fun part member => parts part (List.mem_cons_of_mem _ member))
      refine .node (.stmt (.branch info first condition inner body rest))
        (by simp)
        (.append ((own _).mono ?_ fun _ owned => owned) ((others _).mono ?_ fun _ owned => owned))
      · intro wrong
        simp only [Node.hasErrors, Bool.or_eq_true] at wrong
        simp only [Node.hasErrors, hasErrors, Bool.or_eq_true]
        exact .inl (or_assoc.mpr (.inr wrong))
      · intro wrong
        simp only [Node.hasErrors, hasErrors, wrong, Bool.or_true]
  | whileLoop info condition inner body =>
      refine .node (.stmt (.whileLoop info condition inner body)) (by simp)
        (.append (expr condition List.mem_cons_self _) (scope ⟨inner, body⟩ List.mem_cons_self _))
  | doLoop info inner body condition =>
      refine .node (.stmt (.doLoop info inner body condition)) (by simp)
        (.append (scope ⟨inner, body⟩ List.mem_cons_self _) (expr condition List.mem_cons_self _))
  | forLoop info init condition afterthought inner body =>
      have tested := Outlines.option fun value (given : value ∈ condition) =>
        expr value (List.mem_append_left _ (List.mem_append_right _ (Option.mem_toList.mpr given)))
          (.stmt (.forLoop info init condition afterthought inner body) :: around)
      refine .node (.stmt (.forLoop info init condition afterthought inner body))
        (by simp) (.append (.append (.append (list .loopInit init ?_ _) tested)
          (list .loopAfterthought afterthought ?_ _)) (scope ⟨inner, body⟩ List.mem_cons_self _))
      · exact fun _ member => List.mem_append_left _ (List.mem_append_left _ member)
      · exact List.subset_append_right _ _

theorem list_outlines (body : List Stmt) :
    (∀ expr ∈ bodyExprs body, ∀ node ∈ expr.nodes, owned node) → ∀ around,
      Outlines (listHasErrors body = true) owned around (listOutline around body) := by
  induction body using Stmt.list_induction with
  | nil => exact fun _ _ => .nil
  | cons stmt rest inner outer =>
      intro exprs around
      have within {found : Stmt} (inside : found ∈ listStatements (stmt :: rest)) :
          ∀ expr ∈ found.exprs, ∀ node ∈ expr.nodes, owned node :=
        fun expr member => exprs expr (List.mem_flatMap.mpr ⟨found, inside, member⟩)
      have head := outlines_of_parts (within (mem_list_statements_cons.mpr (.inl rfl)))
        (fun part member around => inner part member (by
          intro expr inside
          obtain ⟨found, inside, own⟩ := List.mem_flatMap.mp inside
          exact within (mem_of_part member inside) expr own) around) around
      have others := outer (by
        intro expr inside
        obtain ⟨found, inside, own⟩ := List.mem_flatMap.mp inside
        exact within (mem_of_rest inside) expr own) around
      refine .append (head.mono ?_ fun _ owned => owned) (others.mono ?_ fun _ owned => owned)
      · exact fun wrong => by rw [listHasErrors, wrong, Bool.true_or]
      · exact fun wrong => by rw [listHasErrors, wrong, Bool.or_true]

end Stmt

theorem ParameterList.outlines (list : ParameterList) (around : List Node) :
    Outlines (list.hasErrors = true) owned around (list.outline around) := by
  refine .node (.parameters list) (by simp) ?_
  intro occurrence member
  obtain ⟨decl, inside, rfl⟩ := List.mem_map.mp member
  refine ⟨fun wrong => ⟨List.any_eq_true.mpr ⟨decl, inside, wrong⟩, ?_⟩, fun _ same => nomatch same⟩
  exact fun outer inside => .inl inside

/-- A function or handler holds its parameters and a scope. -/
theorem outlines_bodied (here : Node) {parameters : ParameterList} (scope : CodeScope)
    (plain : ∀ expr, here ≠ .expr expr)
    (rises : parameters.hasErrors || Stmt.listHasErrors scope.body → here.hasErrors = true)
    (exprs : ∀ expr ∈ Stmt.bodyExprs scope.body, ∀ node ∈ expr.nodes, owned node)
    (around : List Node) :
    Outlines (here.hasErrors = true) owned around
      (⟨here, around⟩ :: (parameters.outline (here :: around) ++
        Stmt.scopeOutline (here :: around) scope.info scope.body)) := by
  refine .node here (fun expr same => absurd same (plain expr)) (.append ?_ ?_)
  · exact (parameters.outlines _).mono (fun wrong => rises (by simp [wrong])) fun _ owned => owned
  · exact outlines_scope scope (Stmt.list_outlines scope.body exprs)
      (fun wrong => rises (by simp [wrong])) _

theorem FunctionDecl.outlines {decl : FunctionDecl}
    (exprs : ∀ expr ∈ Stmt.bodyExprs decl.body, ∀ node ∈ expr.nodes, owned node)
    (around : List Node) :
    Outlines (decl.hasErrors = true) owned around (decl.outline around) := by
  refine outlines_bodied (.function decl) decl.ownScope (by simp) ?_ exprs around
  intro wrong
  rw [Node.hasErrors, FunctionDecl.hasErrors, Bool.or_assoc]
  exact Bool.or_eq_true_iff.mpr (.inr wrong)

theorem HandlerDecl.outlines {decl : HandlerDecl}
    (exprs : ∀ expr ∈ Stmt.bodyExprs decl.body, ∀ node ∈ expr.nodes, owned node)
    (around : List Node) :
    Outlines (decl.hasErrors = true) owned around (decl.outline around) := by
  refine outlines_bodied (.handler decl) decl.ownScope (by simp) ?_ exprs around
  intro wrong
  rw [Node.hasErrors, HandlerDecl.hasErrors, Bool.or_assoc]
  exact Bool.or_eq_true_iff.mpr (.inr wrong)

theorem GlobalDecl.outlines {global : GlobalDecl}
    (exprs : ∀ value ∈ global.decl.initializer, ∀ node ∈ value.nodes, owned node)
    (around : List Node) :
    Outlines (global.hasErrors = true) owned around (global.outline around) := by
  refine .node (.global global) (by simp) (.option fun value given => ?_)
  refine outlines_expr (exprs value given) (fun wrong => ?_) _
  obtain given := Option.mem_def.mp given
  simp [Node.hasErrors, GlobalDecl.hasErrors, Variable.hasErrors, given, wrong]

theorem StateDecl.outlines {decl : StateDecl}
    (exprs : ∀ expr ∈ decl.exprs, ∀ node ∈ expr.nodes, owned node) (around : List Node) :
    Outlines (decl.hasErrors = true) owned around (decl.outline around) := by
  refine .node (.state decl) (by simp) (.flat_map fun member inside => ?_)
  have rises : member.hasErrors = true → decl.hasErrors = true := fun wrong =>
    Bool.or_eq_true_iff.mpr (.inr (List.any_eq_true.mpr ⟨member, inside, wrong⟩))
  cases member with
  | broken span =>
      exact (Outlines.node (.broken .handler span) (by simp) .nil).mono rises
        fun _ owned => owned
  | handler handler =>
      refine (HandlerDecl.outlines (fun expr member => exprs expr ?_) _).mono rises
        fun _ owned => owned
      exact List.mem_flatMap.mpr ⟨handler.ownScope,
        List.mem_filterMap.mpr ⟨.handler handler, inside, rfl⟩, member⟩

end

/-- An error at a node of a script is one of the script and of all nodes around that node. -/
theorem Script.outlines (script : Script) :
    Outlines (script.hasErrors = true) (· ∈ script.nodes) [] script.outline := by
  have owned {expr : Expr} (member : expr ∈ script.exprs) :
      ∀ node ∈ expr.nodes, node ∈ script.nodes :=
    fun node inside => List.mem_flatMap.mpr ⟨expr, member, inside⟩
  have state {decl : StateDecl} (member : decl ∈ script.allStates) :
      ∀ expr ∈ decl.exprs, expr ∈ script.exprs := by
    intro expr inside
    obtain ⟨body, bodyMember, inside⟩ := List.mem_flatMap.mp inside
    exact List.mem_append_right _ (List.mem_flatMap.mpr ⟨body,
      List.mem_append_right _ (List.mem_flatMap.mpr ⟨decl, member, bodyMember⟩), inside⟩)
  refine .node (.script script) (by simp)
    (.append (.append (.append (.append (.flat_map ?_) (.flat_map ?_)) (.option ?_))
      (.flat_map ?_)) ?_)
  · intro global member
    refine (GlobalDecl.outlines (fun value given => owned ?_) _).mono (fun wrong => ?_)
      fun _ owned => owned
    · exact List.mem_append_left _ (List.mem_flatMap.mpr ⟨global, member,
        Option.mem_toList.mpr given⟩)
    · have some := List.any_eq_true.mpr ⟨global, member, wrong⟩
      simp [Node.hasErrors, Script.hasErrors, some]
  · intro decl member
    refine (FunctionDecl.outlines (fun expr inside => owned ?_) _).mono (fun wrong => ?_)
      fun _ owned => owned
    · exact List.mem_append_right _ (List.mem_flatMap.mpr ⟨decl.ownScope,
        List.mem_append_left _ (List.mem_map_of_mem member), inside⟩)
    · have some := List.any_eq_true.mpr ⟨decl, member, wrong⟩
      simp [Node.hasErrors, Script.hasErrors, some]
  · intro decl given
    refine (StateDecl.outlines (fun expr inside => owned (state ?_ expr inside)) _).mono
      (fun wrong => ?_) fun _ owned => owned
    · exact List.mem_append_left _ (Option.mem_toList.mpr given)
    · simp [Node.hasErrors, Script.hasErrors, Option.mem_def.mp given, wrong]
  · intro decl member
    refine (StateDecl.outlines (fun expr inside => owned (state ?_ expr inside)) _).mono
      (fun wrong => ?_) fun _ owned => owned
    · exact List.mem_append_right _ member
    · have some := List.any_eq_true.mpr ⟨decl, member, wrong⟩
      simp [Node.hasErrors, Script.hasErrors, some]
  · intro occurrence member
    obtain ⟨part, inside, rfl⟩ := List.mem_map.mp member
    refine ⟨fun _ => ⟨?_, fun outer inside => .inl inside⟩, fun _ same => by cases same⟩
    have some : script.broken.isEmpty = false := by
      rw [List.isEmpty_eq_false_iff]
      exact List.ne_nil_of_mem inside
    simp [Node.hasErrors, Script.hasErrors, some]

end Lsl
