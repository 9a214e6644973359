import Lsl.Proofs.Checking.Run
import Lsl.Proofs.Syntax.Plain

/-!
Checking leaves a script as it was read. It fills in types, bindings, marks and targets, and neither
adds, drops nor moves a node: plainly, a checked script is the script itself.
-/

set_option autoImplicit false

namespace Lsl

namespace Expr

@[simp] theorem plain_blamed (expr : Expr) : expr.blamed.plain = expr.plain := by
  cases expr <;> rfl

@[simp] theorem plain_blame (expr : Expr) (problem : Problem) :
    (expr.blame problem).value.plain = expr.plain :=
  expr.plain_blamed

@[simp] theorem plain_ite_blame (fine : Prop) [Decidable fine] (expr : Expr) (problem : Problem) :
    (if fine then pure expr else expr.blame problem : Checked Expr).value.plain = expr.plain := by
  split <;> simp

@[simp] theorem plain_demand (expr : Expr) (admits : ValueType → Bool)
    (problem : ValueType → Problem) : (expr.demand admits problem).value.plain = expr.plain := by
  unfold demand
  split <;> simp

end Expr

@[simp] theorem plain_check_target (expr : Expr) :
    (checkTarget expr).value.1.plain = expr.plain := by
  match expr with
  | .reference info name binding => cases binding <;> simp [checkTarget, Expr.plain]
  | .component info part target =>
      have inner := plain_check_target target
      simpa [checkTarget, Expr.plain] using inner
  | .integer _ _ | .hex _ _ | .float _ _ | .string _ _ | .vector _ _ _ _ | .rotation _ _ _ _ _
  | .list _ _ _ | .call _ _ _ _ _ | .binary _ _ _ _ | .prefixed _ _ _ | .postfixed _ _ _
  | .cast _ _ _ | .grouped _ _ => rfl

@[simp] theorem plain_fit_arguments (function : String) (place : Nat) (arguments : List Expr)
    (types : List ValueType) :
    (fitArguments function place arguments types).value.map Expr.plain =
      arguments.map Expr.plain := by
  induction arguments generalizing place types with
  | nil => cases types <;> rfl
  | cons argument arguments induction =>
      cases types with
      | nil => rfl
      | cons expected types => simp [fitArguments, induction]

section

variable (view : View) (info : ExprInfo) (name : String) (inner : Span) (arguments : List Expr)

/-- A call, as it is without what was found out about it. -/
def plainCall : Expr := .call info.plain name inner (arguments.map Expr.plain) .unresolved

theorem plain_check_arguments (target : CallTarget) (parameters : List ValueType) :
    (checkArguments info name inner arguments target parameters).value.plain =
      plainCall info name inner arguments := by
  unfold checkArguments
  split <;> simp [Expr.plain, Expr.list_plain_eq, plainCall]

theorem plain_check_library_call (types : List ValueType) :
    (checkLibraryCall view info name inner arguments types).value.plain =
      plainCall info name inner arguments := by
  unfold checkLibraryCall
  split
  · unfold checkUnresolvedCall
    split
    · split
      · simp [Expr.plain, Expr.list_plain_eq, plainCall]
      · exact plain_check_arguments _ name inner arguments _ _
    · simp [Expr.plain, Expr.list_plain_eq, plainCall]
  · split <;> simp [Expr.plain, Expr.list_plain_eq, plainCall, ExprInfo.plain]

theorem plain_check_call :
    (checkCall view info name inner arguments).value.plain =
      plainCall info name inner arguments := by
  unfold checkCall
  split
  · exact plain_check_arguments _ name inner arguments _ _
  · split
    · simp [Expr.plain, Expr.list_plain_eq, plainCall]
    · split
      · simp [Expr.plain, Expr.list_plain_eq, plainCall]
      · exact plain_check_library_call view info name inner arguments _

end

section

variable (info : ExprInfo)

theorem plain_type_operation (operator : BinaryOperator) (left right : Expr) :
    (typeOperation info operator left right).value.plain =
      .binary info.plain operator left.plain right.plain := by
  unfold typeOperation
  split
  · dsimp only
    rw [Expr.plain_ite_blame]
    rfl
  · rfl

theorem plain_check_binary (operator : BinaryOperator) (left right : Expr) :
    (checkBinary info operator left right).value.plain =
      .binary info.plain operator left.plain right.plain := by
  unfold checkBinary
  split
  · simp only [Checked.value_bind]
    split
    · rw [plain_type_operation, plain_check_target]
    · simp [Expr.plain]
  · exact plain_type_operation info operator left right

theorem plain_type_prefixed (operator : PrefixOperator) (operand : Expr) (type : ValueType) :
    (typePrefixed info operator operand type).value.plain =
      .prefixed info.plain operator operand.plain := by
  unfold typePrefixed
  dsimp only
  rw [Expr.plain_ite_blame]
  rfl

theorem plain_check_prefixed (operator : PrefixOperator) (operand : Expr) :
    (checkPrefixed info operator operand).value.plain =
      .prefixed info.plain operator operand.plain := by
  unfold checkPrefixed
  split
  · rfl
  · split
    · simp only [Checked.value_bind]
      split
      · rw [plain_type_prefixed, plain_check_target]
      · split <;> simp [Expr.plain]
    · exact plain_type_prefixed info operator operand _

theorem plain_check_postfixed (operator : PostfixOperator) (operand : Expr) :
    (checkPostfixed info operator operand).value.plain =
      .postfixed info.plain operator operand.plain := by
  unfold checkPostfixed
  simp only [Checked.value_bind]
  split
  · split <;> simp [Expr.plain, ExprInfo.plain]
  · simp [Expr.plain]

theorem plain_check_cast (target : ValueType) (operand : Expr) :
    (checkCast info target operand).value.plain = .cast info.plain target operand.plain := by
  unfold checkCast
  split
  · rfl
  · dsimp only
    rw [Expr.plain_ite_blame]
    rfl

theorem plain_check_component (part : Component) (target : Expr) :
    (checkComponent info part target).value.plain = .component info.plain part target.plain := by
  unfold checkComponent
  split
  · rfl
  · split <;> simp [Expr.plain, ExprInfo.plain]

theorem plain_check_reference (view : View) (name : String) :
    (checkReference view info name).value.plain = .reference info.plain name .unresolved := by
  unfold checkReference
  split <;> simp [Expr.plain, ExprInfo.plain]

end

variable (view : View)

theorem plain_check_exprs {demand : Expr → Checked Expr}
    (keeps : ∀ expr, (demand expr).value.plain = expr.plain) {exprs : List Expr}
    (each : ∀ expr ∈ exprs, (checkExpr view expr).value.plain = expr.plain) :
    (checkExprs view demand exprs).value.map Expr.plain = exprs.map Expr.plain := by
  induction exprs with
  | nil => rfl
  | cons expr rest induction =>
      have others := induction fun expr member => each expr (List.mem_cons_of_mem _ member)
      simp [checkExprs, keeps, each expr List.mem_cons_self, others]

@[simp] theorem plain_check_expr (expr : Expr) : (checkExpr view expr).value.plain = expr.plain := by
  induction expr using Expr.parts_induction with
  | step expr parts =>
      cases expr with
      | integer info raw | hex info raw | float info raw | string info raw => rfl
      | vector info x y z =>
          simp only [Expr.parts, List.forall_mem_cons] at parts
          obtain ⟨first, second, third, _⟩ := parts
          simp [checkExpr, demandFloat, Expr.plain, ExprInfo.plain, first, second, third]
      | rotation info x y z s =>
          simp only [Expr.parts, List.forall_mem_cons] at parts
          obtain ⟨first, second, third, fourth, _⟩ := parts
          simp [checkExpr, demandFloat, Expr.plain, ExprInfo.plain, first, second, third, fourth]
      | list info inner elements =>
          have same : (checkExprs view demandElement elements).value.map Expr.plain =
              elements.map Expr.plain :=
            plain_check_exprs view (fun expr => expr.plain_demand _ _) parts
          simp [checkExpr, Expr.plain, ExprInfo.plain, Expr.list_plain_eq, same]
      | reference info name binding => exact plain_check_reference info view name
      | call info name inner arguments target =>
          have same : (checkExprs view pure arguments).value.map Expr.plain =
              arguments.map Expr.plain :=
            plain_check_exprs view (fun _ => rfl) parts
          simp [checkExpr, plain_check_call, plainCall, Expr.plain, Expr.list_plain_eq, same]
      | binary info operator left right =>
          simp only [Expr.parts, List.forall_mem_cons] at parts
          obtain ⟨first, second, _⟩ := parts
          simp [checkExpr, plain_check_binary, Expr.plain, first, second]
      | prefixed info operator operand =>
          have inner := parts operand List.mem_cons_self
          simp [checkExpr, plain_check_prefixed, Expr.plain, inner]
      | postfixed info operator operand =>
          have inner := parts operand List.mem_cons_self
          simp [checkExpr, plain_check_postfixed, Expr.plain, inner]
      | cast info target operand =>
          have inner := parts operand List.mem_cons_self
          simp [checkExpr, plain_check_cast, Expr.plain, inner]
      | component info part target =>
          have inner := parts target List.mem_cons_self
          simp [checkExpr, plain_check_component, Expr.plain, inner]
      | grouped info operand =>
          have inner := parts operand List.mem_cons_self
          simp [checkExpr, Expr.plain, ExprInfo.plain, inner]

@[simp] theorem plain_check_condition (condition : Expr) :
    (checkCondition view condition).value.plain = condition.plain := by
  simp [checkCondition]

@[simp] theorem plain_check_initializer (type : ValueType) (initializer : Expr) :
    (checkInitializer view type initializer).value.plain = initializer.plain := by
  simp [checkInitializer]

theorem plain_check_option {α : Type} {check : α → Checked α} {plain : α → α}
    (keeps : ∀ value, plain (check value).value = plain value) (value : Option α) :
    (checkOption check value).value.map plain = value.map plain := by
  cases value with
  | none => rfl
  | some value => simp [checkOption, keeps]

theorem plain_check_list (list : ExprList) :
    (checkExprList view list).value.plain = list.plain := by
  have same : (checkExprs view pure list.members).value.map Expr.plain =
      list.members.map Expr.plain :=
    plain_check_exprs view (fun _ => rfl) fun expr _ => plain_check_expr view expr
  simp [checkExprList, ExprList.plain, same]

@[simp] theorem plain_blame_stmt (info : StmtInfo) (problem : Problem) :
    (info.blame problem).value.plain = info.plain := rfl

/-- Marking changes nothing but marks. -/
theorem Alternatives.plain_marked (reach : Reachability) {rest : Alternatives}
    (parts : ∀ part ∈ rest.parts,
      Stmt.listPlain (Stmt.listMarked reach part.body) = Stmt.listPlain part.body) :
    (rest.marked reach).plain = rest.plain := by
  match rest with
  | .done => rfl
  | .elseIf span condition scope body rest =>
      simp only [Alternatives.parts, List.forall_mem_cons] at parts
      have others := plain_marked reach parts.2
      simp [marked, plain, parts.1, others, ScopeInfo.plain]
  | .otherwise span scope body =>
      simp only [Alternatives.parts, List.forall_mem_singleton] at parts
      simp [marked, plain, parts, ScopeInfo.plain]

namespace Stmt

theorem plain_marked (reach : Reachability) {stmt : Stmt}
    (parts : ∀ part ∈ stmt.parts, listPlain (listMarked reach part.body) = listPlain part.body) :
    (stmt.marked reach).plain = stmt.plain := by
  cases stmt with
  | branch info first condition scope body rest =>
      simp only [Stmt.parts, List.forall_mem_cons] at parts
      have others := Alternatives.plain_marked reach parts.2
      simp [marked, plain, parts.1, others, ScopeInfo.plain, StmtInfo.plain]
  | _ => simp_all [marked, plain, Stmt.parts, ScopeInfo.plain, StmtInfo.plain]

theorem list_plain_marked (reach : Reachability) (body : List Stmt) :
    listPlain (listMarked reach body) = listPlain body := by
  induction body using list_induction with
  | nil => rfl
  | cons stmt rest inner outer =>
      have first := plain_marked reach inner
      simp [listMarked, listPlain, first, outer]

end Stmt

theorem Alternatives.plain_settle (targets : List Nat) {rest : Alternatives}
    (parts : ∀ part ∈ rest.parts, ∀ flow,
      Stmt.listPlain (Stmt.listSettle targets flow part.body).1 = Stmt.listPlain part.body) :
    (rest.settle targets).1.plain = rest.plain := by
  match rest with
  | .done => rfl
  | .elseIf span condition scope body rest =>
      simp only [Alternatives.parts, List.forall_mem_cons] at parts
      have others := plain_settle targets parts.2
      simp [settle, plain, parts.1, others]
  | .otherwise span scope body =>
      simp only [Alternatives.parts, List.forall_mem_singleton] at parts
      simp [settle, plain, parts]

namespace Stmt

theorem plain_settle (targets : List Nat) {stmt : Stmt}
    (parts : ∀ part ∈ stmt.parts, ∀ flow,
      listPlain (listSettle targets flow part.body).1 = listPlain part.body) :
    (stmt.settle targets).1.plain = stmt.plain := by
  cases stmt with
  | branch info first condition scope body rest =>
      simp only [Stmt.parts, List.forall_mem_cons] at parts
      have others := Alternatives.plain_settle targets parts.2
      simp [settle, plain, parts.1, others]
  | _ => simp_all [settle, plain, Stmt.parts]

theorem list_plain_settle (targets : List Nat) (flow : Flow) (body : List Stmt) :
    listPlain (listSettle targets flow body).1 = listPlain body := by
  induction body using list_induction generalizing flow with
  | nil => rfl
  | cons stmt rest inner outer =>
      have marked : ∀ reach, (stmt.marked reach).plain = stmt.plain := fun reach =>
        plain_marked reach fun part _ => list_plain_marked reach part.body
      have settled := plain_settle targets fun part member flow => inner part member flow
      simp only [listSettle]
      split
      · split <;> simp [listPlain, marked, outer]
      · simp [listPlain, settled, outer]

end Stmt

theorem plain_declare_functions (library : Library) (declared : List FunctionHeader)
    (list : List FunctionDecl) :
    (declareFunctions library declared list).value.1.map FunctionDecl.plain =
      list.map FunctionDecl.plain := by
  induction list generalizing declared with
  | nil => rfl
  | cons decl rest induction => simp [declareFunctions, induction, FunctionDecl.plain]

theorem plain_declare_state (declared : List (String × Nat)) (decl : StateDecl) :
    (declareState declared decl).value.1.plain = decl.plain := rfl

theorem plain_declare_states (declared : List (String × Nat)) (list : List StateDecl) :
    (declareStates declared list).value.1.map StateDecl.plain = list.map StateDecl.plain := by
  induction list generalizing declared with
  | nil => rfl
  | cons decl rest induction => simp [declareStates, induction, plain_declare_state]

theorem plain_check_globals (view : View) (list : List GlobalDecl) :
    (checkGlobals view list).value.1.map GlobalDecl.plain = list.map GlobalDecl.plain := by
  have initial : ∀ view type name (value : Expr),
      (checkGlobalInitializer view type name value).value.plain = value.plain := by
    intro view type name value
    simp [checkGlobalInitializer]
  induction list generalizing view with
  | nil => rfl
  | cons global rest induction =>
      have first := plain_check_option (initial view global.decl.type global.decl.name)
        global.decl.initializer
      simp [checkGlobals, induction, GlobalDecl.plain, Variable.plain, first]

theorem plain_declare_parameters (library : Library) (declared : List Visible)
    (list : List ParameterDecl) :
    (declareParameters library declared list).value.1.map ParameterDecl.plain =
      list.map ParameterDecl.plain := by
  induction list generalizing declared with
  | nil => rfl
  | cons decl rest induction => simp [declareParameters, induction, ParameterDecl.plain]

/-- Whatever state an action is run in, what it gives is like this and this of the state is kept. -/
def Leaves {α β : Type} (kept : Validator → β) (action : Validation α) (gives : α → Prop) : Prop :=
  ∀ state : Validator, gives (action.run state).1 ∧ kept (action.run state).2 = kept state

namespace Validator

/-- All but what is told. -/
def aside (state : Validator) : Validator := { state with uses := [], reports := [] }

/-- All but what is told and what is declared in the innermost scope. -/
def around (state : Validator) : Validator :=
  { state.aside with environments := state.environments.tail }

/-- What is declared outside of bodies. -/
def tables (state : Validator) : Validator := state.cleared.aside

end Validator

namespace Leaves

variable {α β γ : Type} {kept : Validator → γ} {gives : α → Prop} {others : β → Prop}

theorem of_pure {value : α} (fine : gives value) : Leaves kept (pure value) gives :=
  fun _ => ⟨fine, rfl⟩

theorem bind {first : Validation α} {next : α → Validation β} (one : Leaves kept first gives)
    (two : ∀ value, gives value → Leaves kept (next value) others) :
    Leaves kept (first >>= next) others := by
  intro state
  obtain ⟨fine, same⟩ := one state
  obtain ⟨given, kept⟩ := two _ fine (first.run state).2
  exact ⟨given, kept.trans same⟩

theorem then_pure {first : Validation α} {give : α → β} (one : Leaves kept first gives)
    (fine : ∀ value, gives value → others (give value)) :
    Leaves kept (first >>= fun value => pure (give value)) others :=
  one.bind fun value given => of_pure (fine value given)

theorem of_get {next : Validator → Validation α} (each : ∀ state, Leaves kept (next state) gives) :
    Leaves kept (get >>= next) gives :=
  fun state => each state state

theorem widen {wider : Validator → Validator} {kept : Validator → Validator} {action : Validation α}
    (one : Leaves kept action gives) (finer : ∀ state, wider (kept state) = wider state) :
    Leaves wider action gives := by
  intro state
  obtain ⟨fine, same⟩ := one state
  refine ⟨fine, ?_⟩
  rw [← finer, same, finer]

theorem around {action : Validation α} (one : Leaves Validator.aside action gives) :
    Leaves Validator.around action gives :=
  one.widen fun _ => rfl

theorem tables {action : Validation α} (one : Leaves Validator.aside action gives) :
    Leaves Validator.tables action gives :=
  one.widen fun _ => rfl

theorem of_runs {action : Validation α} {checked : Validator → Checked α}
    {uses : Validator → List Use} (runs : ∀ state, Runs action state (checked state) (uses state))
    (fine : ∀ state, gives (checked state).value) : Leaves Validator.aside action gives := by
  intro state
  have run := runs state
  rw [Runs] at run
  rw [run]
  exact ⟨fine state, rfl⟩

theorem of_tell (checked : Checked α) : Leaves Validator.aside (tell checked) (· = checked.value) :=
  of_runs (Runs.of_tell · checked) fun _ => rfl

theorem of_use (declaration? : Option Nat) (span : Span) :
    Leaves Validator.aside (addUse declaration? span) fun _ => True :=
  fun _ => ⟨trivial, rfl⟩

/-- In a scope of their own, statements leave nothing declared. -/
theorem in_scope {statements : Validation (List Stmt)} {gives : List Stmt → Prop}
    (inside : Leaves Validator.around statements gives) :
    Leaves Validator.aside (inScope statements) gives := by
  intro state
  obtain ⟨fine, same⟩ := inside (state.enter {})
  refine ⟨fine, ?_⟩
  have left (state : Validator) :
      (leaveScope.run state).2.aside =
        { state.aside with environments := state.environments.tail } := by
    obtain ⟨_, _, _, _, _, environments, _, _, _, _⟩ := state
    cases environments <;> rfl
  exact (left _).trans same

end Leaves

section Expressions

theorem validate_condition_leaves (condition : Expr) :
    Leaves Validator.aside (validateCondition condition) (·.plain = condition.plain) :=
  .of_runs (validate_condition_runs condition) fun _ => plain_check_condition _ condition

theorem validate_option_leaves {α : Type} {validate : α → Validation α} {plain : α → α}
    (each : ∀ value, Leaves Validator.aside (validate value) (plain · = plain value))
    (value : Option α) :
    Leaves Validator.aside (validateOption validate value) (·.map plain = value.map plain) := by
  cases value with
  | none => exact .of_pure rfl
  | some value => exact (each value).then_pure fun _ same => congrArg some same

theorem validate_expr_leaves (expr : Expr) :
    Leaves Validator.aside (validateExpr expr) (·.plain = expr.plain) :=
  .of_runs (validate_expr_runs expr) fun _ => plain_check_expr _ expr

theorem validate_initializer_leaves (type : ValueType) (initializer : Expr) :
    Leaves Validator.aside (validateInitializer type initializer) (·.plain = initializer.plain) :=
  .of_runs (validate_initializer_runs type initializer)
    fun _ => plain_check_initializer _ type initializer

theorem validate_list_leaves (list : ExprList) :
    Leaves Validator.aside (validateExprList list) (·.plain = list.plain) :=
  .of_runs (validate_expr_list_runs list) fun _ => plain_check_list _ list

end Expressions

section Statements

variable (scopes : List Nat) (info : StmtInfo)

theorem blame_leaves (problem : Problem) :
    Leaves Validator.aside (tell (info.blame problem)) (·.plain = info.plain) :=
  fun _ => ⟨rfl, rfl⟩

theorem validate_declaration_leaves (decl : Variable) :
    Leaves Validator.around (validateDeclaration scopes info decl)
      (·.plain = .declare info.plain decl.plain) := by
  have initial := validate_option_leaves (validate_initializer_leaves decl.type) decl.initializer
  refine initial.around.bind fun value same => .of_get fun state => ?_
  have plain : ({ decl with initializer := value } : Variable).plain = decl.plain :=
    congrArg (Variable.mk _ _) same
  dsimp only
  split
  · refine (blame_leaves info _).around.then_pure fun marked known => ?_
    rw [Stmt.plain, known, plain]
  · intro state
    obtain ⟨_, _, _, _, _, environments, _, _, _, _⟩ := state
    refine ⟨congrArg (Stmt.declare _) plain, ?_⟩
    cases environments <;> rfl

theorem validate_return_leaves (value : Option Expr) :
    Leaves Validator.aside (validateReturn info value)
      (·.plain = .giveBack info.plain (value.map Expr.plain)) := by
  refine .of_get fun state => ?_
  split
  · rename_i event value _
    refine (validate_expr_leaves value).bind fun value same => ?_
    refine (Leaves.of_tell _).then_pure fun _ _ => ?_
    exact congrArg (Stmt.giveBack _ ∘ some) same
  · rename_i name value _
    refine (validate_expr_leaves value).bind fun value same => ?_
    refine (blame_leaves info _).then_pure fun marked known => ?_
    rw [Stmt.plain, known, Option.map_some, Option.map_some, same]
  · rename_i returns value _ _
    refine (validate_expr_leaves value).bind fun value same => ?_
    refine (Leaves.of_tell _).then_pure fun told known => ?_
    rw [known, Stmt.plain, Option.map_some, Expr.plain_demand, same, Option.map_some]
  · split
    · exact .of_pure rfl
    · exact (blame_leaves info _).then_pure fun _ known => congrArg (Stmt.giveBack · none) known
  · exact .of_pure rfl

theorem validate_jump_leaves (name : String) :
    Leaves Validator.aside (validateJump scopes info name)
      (·.plain = .jump info.plain name none) := by
  refine .of_get fun state => ?_
  split
  · exact (blame_leaves info _).then_pure fun _ known => congrArg (Stmt.jump · name none) known
  · refine (Leaves.of_tell _).bind fun checked told => (Leaves.of_use _ _).then_pure fun _ _ => ?_
    have known : checked.plain = info.plain := by
      rw [told]
      split <;> rfl
    exact congrArg (Stmt.jump · name none) known

theorem validate_state_change_leaves (name : String) :
    Leaves Validator.aside (validateStateChange info name)
      (·.plain = .changeState info.plain name none) := by
  refine .of_get fun state => ?_
  split
  · exact (blame_leaves info _).then_pure fun _ known => congrArg (Stmt.changeState · name none) known
  · exact (Leaves.of_use _ _).bind fun _ _ => (Leaves.of_tell _).then_pure fun _ _ => rfl

theorem validate_label_leaves (name : String) :
    Leaves Validator.aside (validateLabel info name) (·.plain = .label info.plain name) :=
  .of_get fun _ => .of_pure rfl

/-- In whatever scopes and state statements are validated, they are given back as they were, and no
more than the innermost scope is changed. -/
def CodeScope.LeavesPlain (part : CodeScope) : Prop :=
  ∀ scopes, Leaves Validator.around (validateStmts scopes part.body)
    (Stmt.listPlain · = Stmt.listPlain part.body)

theorem validate_alternatives_leaves {rest : Alternatives}
    (parts : ∀ part ∈ rest.parts, part.LeavesPlain) :
    Leaves Validator.aside (validateAlternatives scopes rest) (·.plain = rest.plain) := by
  match rest with
  | .done => exact .of_pure rfl
  | .elseIf span condition scope body rest =>
      obtain ⟨own, others⟩ := List.forall_mem_cons.mp parts
      rw [validateAlternatives]
      refine (validate_condition_leaves condition).bind fun condition tested => ?_
      refine (Leaves.in_scope (own _)).bind fun body inside => ?_
      refine (validate_alternatives_leaves others).then_pure fun rest same => ?_
      rw [Alternatives.plain, tested, inside, same, Alternatives.plain]
  | .otherwise span scope body =>
      have own := parts ⟨scope, body⟩ List.mem_cons_self
      rw [validateAlternatives]
      refine (Leaves.in_scope (own _)).then_pure fun body inside => ?_
      rw [Alternatives.plain, inside, Alternatives.plain]

theorem validate_stmt_leaves {stmt : Stmt} (parts : ∀ part ∈ stmt.parts, part.LeavesPlain) :
    Leaves Validator.around (validateStmt scopes stmt) (·.plain = stmt.plain) := by
  cases stmt with
  | block scope body =>
      have own := parts ⟨scope, body⟩ List.mem_cons_self
      rw [validateStmt]
      refine ((Leaves.in_scope (own _)).then_pure fun body inside => ?_).around
      rw [Stmt.plain, inside, Stmt.plain]
  | declare info decl =>
      rw [validateStmt]
      exact validate_declaration_leaves scopes info decl
  | perform info value =>
      rw [validateStmt]
      refine ((validate_expr_leaves value).then_pure fun value same => ?_).around
      rw [Stmt.plain, same, Stmt.plain]
  | giveBack info value =>
      rw [validateStmt]
      exact (validate_return_leaves info value).around
  | jump info name target =>
      rw [validateStmt]
      exact (validate_jump_leaves scopes info name).around
  | label info name =>
      rw [validateStmt]
      exact (validate_label_leaves info name).around
  | changeState info name target =>
      rw [validateStmt]
      exact (validate_state_change_leaves info name).around
  | branch info first condition scope body rest =>
      obtain ⟨own, others⟩ := List.forall_mem_cons.mp parts
      rw [validateStmt]
      refine Leaves.around ((validate_condition_leaves condition).bind fun condition tested => ?_)
      refine (Leaves.in_scope (own _)).bind fun body inside => ?_
      refine (validate_alternatives_leaves scopes others).then_pure fun rest same => ?_
      rw [Stmt.plain, tested, inside, same, Stmt.plain]
  | whileLoop info condition scope body =>
      have own := parts ⟨scope, body⟩ List.mem_cons_self
      rw [validateStmt]
      refine Leaves.around ((validate_condition_leaves condition).bind fun condition tested => ?_)
      refine (Leaves.in_scope (own _)).then_pure fun body inside => ?_
      rw [Stmt.plain, tested, inside, Stmt.plain]
  | doLoop info scope body condition =>
      have own := parts ⟨scope, body⟩ List.mem_cons_self
      rw [validateStmt]
      refine Leaves.around ((Leaves.in_scope (own _)).bind fun body inside => ?_)
      refine (validate_condition_leaves condition).then_pure fun condition tested => ?_
      rw [Stmt.plain, tested, inside, Stmt.plain]
  | forLoop info init condition afterthought scope body =>
      have own := parts ⟨scope, body⟩ List.mem_cons_self
      have clause := validate_option_leaves validate_list_leaves
      rw [validateStmt]
      refine Leaves.around ((clause init).bind fun init first => ?_)
      refine (validate_option_leaves validate_condition_leaves condition).bind
        fun condition tested => ?_
      refine (clause afterthought).bind fun afterthought last => ?_
      refine (Leaves.in_scope (own _)).then_pure fun body inside => ?_
      rw [Stmt.plain, first, tested, last, inside, Stmt.plain]
  | empty info | broken span => exact .of_pure rfl

theorem validate_stmts_leave (body : List Stmt) :
    Leaves Validator.around (validateStmts scopes body)
      (Stmt.listPlain · = Stmt.listPlain body) := by
  induction body using Stmt.list_induction generalizing scopes with
  | nil => exact .of_pure rfl
  | cons stmt rest inner outer =>
      have first := validate_stmt_leaves scopes fun part member scopes => inner part member scopes
      rw [validateStmts]
      refine first.bind fun stmt same => (outer scopes).then_pure fun rest others => ?_
      rw [Stmt.listPlain, same, others, Stmt.listPlain]

end Statements

section Bodies

/-- A body is given back as it was, and the tables of what is declared outside of it are kept. -/
theorem validate_body_leaves (owner : Owner) (parameters : ParameterList) (scope : ScopeInfo)
    (body : List Stmt) :
    Leaves Validator.tables (validateBody owner parameters scope body) fun (given, inside) =>
      given.plain = parameters.plain ∧ Stmt.listPlain inside = Stmt.listPlain body := by
  intro state
  rw [validate_body_run]
  obtain ⟨plain, kept⟩ := (Leaves.in_scope (validate_stmts_leave [scope.id] body)).tables
    (state.atBody owner (declareLabels [] (Stmt.listLabels scope.id body))
      (declareParameters state.library [] parameters.members))
  refine ⟨⟨?_, ?_⟩, kept⟩
  · simp [ParameterList.plain, plain_declare_parameters]
  · rw [Stmt.list_plain_settle, plain]

/-- Nothing of a body is left in the state when it has been validated. -/
theorem idle_behind_body (state : Validator) (owner : Owner) (parameters : ParameterList)
    (scope : ScopeInfo) (body : List Stmt) :
    ((validateBody owner parameters scope body).run state).2.Idle :=
  ⟨rfl, rfl, rfl⟩

theorem validate_function_leaves (decl : FunctionDecl) :
    Leaves Validator.tables (validateFunction decl) (·.plain = decl.plain) := by
  refine (validate_body_leaves _ _ _ _).bind fun (parameters, body) same => ?_
  refine (Leaves.of_tell _).tables.then_pure fun faulty _ => ?_
  simp only [FunctionDecl.plain, same]

theorem validate_handler_leaves (decl : HandlerDecl) :
    Leaves Validator.tables (validateHandler decl) (·.plain = decl.plain) := by
  refine .of_get fun state => (Leaves.of_tell _).tables.bind fun faulty _ => ?_
  refine (validate_body_leaves _ _ _ _).then_pure fun (parameters, body) same => ?_
  simp only [HandlerDecl.plain, same]

theorem validate_members_leave (state : String) (seen : List String) (members : List StateMember) :
    Leaves Validator.tables (validateMembers state seen members)
      (·.map StateMember.plain = members.map StateMember.plain) := by
  induction members generalizing seen with
  | nil => exact .of_pure rfl
  | cons member rest induction =>
      cases member with
      | broken span =>
          rw [validateMembers]
          exact (induction seen).then_pure fun rest same => congrArg (List.cons _) same
      | handler decl =>
          rw [validateMembers]
          split
          · refine (Leaves.of_tell _).tables.bind fun _ _ => ?_
            refine (induction seen).then_pure fun rest same => ?_
            rw [List.map_cons, same]
            rfl
          · refine (validate_handler_leaves decl).bind fun checked own => ?_
            refine (induction _).then_pure fun rest same => ?_
            rw [List.map_cons, StateMember.plain, own, same]
            rfl

theorem validate_state_leaves (decl : StateDecl) :
    Leaves Validator.tables (validateState decl) (·.plain = decl.plain) := by
  unfold validateState
  split
  · exact (Leaves.of_tell _).tables.then_pure fun _ _ => rfl
  · refine (validate_members_leave _ _ _).then_pure fun members same => ?_
    rw [StateDecl.plain, same, StateDecl.plain]

end Bodies

section Scripts

theorem Leaves.map_m {α β : Type} {kept : Validator → β} {validate : α → Validation α}
    {plain : α → α} (each : ∀ value, Leaves kept (validate value) (plain · = plain value))
    (list : List α) : Leaves kept (list.mapM validate) (·.map plain = list.map plain) := by
  induction list with
  | nil => exact .of_pure rfl
  | cons value rest induction =>
      rw [List.mapM_cons]
      refine (each value).bind fun value own => induction.then_pure fun rest others => ?_
      rw [List.map_cons, own, others, List.map_cons]

theorem validate_default_leaves (span : Span) (initial : Option StateDecl) :
    Leaves Validator.tables (validateDefaultState span initial)
      (·.map StateDecl.plain = initial.map StateDecl.plain) := by
  cases initial with
  | none => exact (Leaves.of_tell _).tables.then_pure fun _ _ => rfl
  | some decl => exact (validate_state_leaves decl).then_pure fun _ same => congrArg some same

/-- A validated script is the one that was read, but for what was found out about it. -/
theorem plain_validate (library : Library) (script : Script) :
    (validate library script).value.plain = script.plain := by
  have globals : (script.listedGlobals library).1.map GlobalDecl.plain =
      script.globals.map GlobalDecl.plain := plain_check_globals _ _
  have start : script.startingState.map StateDecl.plain =
      script.defaultState.map StateDecl.plain := by
    rw [Script.startingState]
    cases script.defaultState <;> rfl
  have functions (state : Validator) :
      (((script.listedFunctions library).1.mapM validateFunction).run state).1.map
        FunctionDecl.plain = script.functions.map FunctionDecl.plain :=
    (Leaves.map_m validate_function_leaves _ state).1.trans (plain_declare_functions ..)
  have initial (state : Validator) :
      ((validateDefaultState script.span script.startingState).run state).1.map StateDecl.plain =
        script.defaultState.map StateDecl.plain :=
    (validate_default_leaves script.span _ state).1.trans start
  have states (state : Validator) :
      ((script.otherStates.mapM validateState).run state).1.map StateDecl.plain =
        script.states.map StateDecl.plain :=
    (Leaves.map_m validate_state_leaves _ state).1.trans (plain_declare_states ..)
  rw [validate, validate_script_run]
  simp only [Script.plain, Script.concluded, globals, functions, initial, states]

@[simp] theorem Script.plain_concluded (script : Script) (reports : List Diagnostic) :
    (script.concluded reports).plain = script.plain := rfl

theorem plain_check (library : Library) (script : Script) :
    (check library script).value.plain = script.plain := by
  unfold check
  split
  · rfl
  · exact plain_validate library script

/-- Validation of a source leaves its script as it was read. -/
theorem plain_check_source (library : Library) (source : String) :
    (checkSource library source).value.plain = (parse (tokenize source)).1.plain := by
  unfold checkSource
  dsimp only
  split
  · exact plain_validate library _
  · rw [Script.plain_concluded]

end Scripts

end Lsl
