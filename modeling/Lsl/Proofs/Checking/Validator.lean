import Lsl.Checking.Validator
import Lsl.Proofs.Checking.Referents

/-!
The validator does what the checks say. A check is a function of what can be named; the validator goes
through one state, in which it finds the same names, and adds to it what the check reports and the uses
that it binds. What is used in a scope is known when the scope is left, so the state that the uses
are read from makes no difference either.
-/

set_option autoImplicit false

namespace Lsl

namespace Validator

/-- The state with more reported and more uses recorded. -/
def told (state : Validator) (reports : List Diagnostic) (uses : List Use) : Validator :=
  { state with uses := state.uses ++ uses, reports := state.reports ++ reports }

variable (state : Validator) (reports : List Diagnostic) (uses : List Use)

@[simp] theorem told_nil : state.told [] [] = state := by simp [told]

@[simp] theorem told_told (more : List Diagnostic) (others : List Use) :
    (state.told reports uses).told more others = state.told (reports ++ more) (uses ++ others) := by
  simp [told]

@[simp] theorem view_told : (state.told reports uses).view = state.view := rfl

theorem run_get {α : Type} (next : Validator → Validation α) :
    (get >>= next).run state = (next state).run state := rfl

@[simp] theorem label_told (name : String) : (state.told reports uses).label? name = state.label? name :=
  rfl

end Validator

theorem Checked.bind_bind {α β γ : Type} (first : Checked α) (next : α → Checked β)
    (last : β → Checked γ) :
    first >>= next >>= last = first >>= fun value => next value >>= last :=
  congrArg (Checked.mk _) (List.append_assoc _ _ _)

/-- An action gives what a check gives. To the state it adds what the check reports, and these
uses. -/
def Runs {α : Type} (action : Validation α) (state : Validator) (checked : Checked α)
    (uses : List Use) : Prop :=
  action.run state = (checked.value, state.told checked.reports uses)

namespace Runs

variable {α β : Type} {state : Validator}

theorem of_pure (value : α) : Runs (pure value) state (pure value) [] :=
  congrArg (Prod.mk value) state.told_nil.symm

theorem of_tell (state : Validator) (checked : Checked α) : Runs (tell checked) state checked [] := by
  rw [Runs, Validator.told, List.append_nil]
  rfl

/-- What follows a use that is recorded runs in the state with that use. -/
theorem of_used {next : Unit → Validation α} {checked : Checked α} {uses : List Use}
    {declaration? : Option Nat} {span : Span}
    (one : Runs (next ()) (state.told [] (Use.ofBound span declaration?)) checked uses) :
    Runs (addUse declaration? span >>= next) state checked
      (Use.ofBound span declaration? ++ uses) := by
  have used : state.told [] (Use.ofBound span declaration?) =
      { state with uses := state.uses ++ Use.ofBound span declaration? } := by
    rw [Validator.told, List.append_nil]
  rw [Runs, Validator.told_told, used] at one
  exact one

theorem of_use (state : Validator) (declaration? : Option Nat) (span : Span) (value : α) :
    Runs (addUse declaration? span >>= fun _ => pure value) state (pure value)
      (Use.ofBound span declaration?) :=
  List.append_nil (Use.ofBound span declaration?) ▸ of_used (of_pure value)

theorem of_get {next : Validator → Validation α} {checked : Checked α} {uses : List Use}
    (one : Runs (next state) state checked uses) : Runs (get >>= next) state checked uses :=
  one

variable {first : Validation α} {next : α → Validation β} {checked : Checked α}
  {follow : α → Checked β} {uses others : List Use}

theorem run_bind (one : Runs first state checked uses) :
    (first >>= next).run state =
      (next checked.value).run (state.told checked.reports uses) := by
  have step : (first >>= next).run state = (next (first.run state).1).run (first.run state).2 := rfl
  rw [Runs] at one
  rw [step, one]

theorem bind (one : Runs first state checked uses)
    (two : Runs (next checked.value) (state.told checked.reports uses) (follow checked.value)
      others) :
    Runs (first >>= next) state (checked >>= follow) (uses ++ others) := by
  rw [Runs] at two
  rw [Runs, one.run_bind, two, Validator.told_told]
  rfl

/-- What is told behind an action adds no uses. -/
theorem then_tell (one : Runs first state checked uses) :
    Runs (first >>= fun value => tell (follow value)) state (checked >>= follow) uses :=
  List.append_nil uses ▸ one.bind (of_tell _ _)

theorem then_pure {give : α → β} (one : Runs first state checked uses) :
    Runs (first >>= fun value => pure (give value)) state
      (checked >>= fun value => pure (give value)) uses :=
  List.append_nil uses ▸ one.bind (of_pure _)

theorem congr {same : List Use} (one : Runs first state checked uses) (equal : uses = same) :
    Runs first state checked same :=
  equal ▸ one

end Runs

section Expressions

/-- An expression is validated as it is checked with what can be named. -/
def Expr.RunsChecked (expr : Expr) : Prop :=
  ∀ state : Validator, Runs (validateExpr expr) state (checkExpr state.view expr)
    (checkExpr state.view expr).value.uses

theorem validate_reference_runs (state : Validator) (info : ExprInfo) (name : String) :
    Runs (validateReference info name) state (checkReference state.view info name)
      (checkReference state.view info name).value.uses := by
  unfold validateReference checkReference
  refine .of_get ?_
  cases state.view.resolve name with
  | error problem =>
      exact (Runs.of_tell _ _).congr (Expr.uses_blame (.reference info name .unresolved) _).symm
  | ok found => exact .of_use _ _ _ _

theorem validate_call_runs (state : Validator) (info : ExprInfo) (name : String) (inner : Span)
    (arguments : List Expr) :
    Runs (validateCall info name inner arguments) state
      (checkCall state.view info name inner arguments)
      (Use.ofBound info.span ((state.view.function? name).map (·.start))) :=
  .of_get ((Runs.of_used (.of_tell _ _)).congr (List.append_nil _))

theorem Expr.RunsChecked.demanded {expr : Expr} (runs : expr.RunsChecked)
    {demand : Expr → Checked Expr} (keeps : ∀ expr, (demand expr).value.uses = expr.uses)
    (state : Validator) :
    Runs (validateExpr expr >>= fun expr => tell (demand expr)) state
      (checkExpr state.view expr >>= demand)
      (checkExpr state.view expr >>= demand).value.uses :=
  (runs state).then_tell.congr (keeps _).symm

theorem validate_exprs_run {demand : Expr → Checked Expr}
    (keeps : ∀ expr, (demand expr).value.uses = expr.uses) {exprs : List Expr}
    (each : ∀ expr ∈ exprs, expr.RunsChecked) (state : Validator) :
    Runs (validateExprs demand exprs) state (checkExprs state.view demand exprs)
      (Expr.listUses (checkExprs state.view demand exprs).value) := by
  induction exprs generalizing state with
  | nil => exact .of_pure []
  | cons expr rest induction =>
      have own := (each expr List.mem_cons_self).demanded keeps state
      have others := induction (fun expr member => each expr (List.mem_cons_of_mem _ member))
      rw [validateExprs, checkExprs]
      exact own.bind (others _).then_pure

theorem uses_demand_float (expr : Expr) : (demandFloat expr).value.uses = expr.uses :=
  expr.uses_demand _ _

theorem validate_expr_runs (expr : Expr) : expr.RunsChecked := by
  induction expr using Expr.parts_induction with
  | step expr parts =>
      intro state
      cases expr with
      | integer info raw | hex info raw | float info raw | string info raw =>
          rw [validateExpr, checkExpr]
          exact .of_pure _
      | vector info x y z =>
          have first := (parts x (by simp [Expr.parts])).demanded uses_demand_float
          have second := (parts y (by simp [Expr.parts])).demanded uses_demand_float
          have third := (parts z (by simp [Expr.parts])).demanded uses_demand_float
          rw [validateExpr, checkExpr]
          refine ((first state).bind ((second _).bind (third _).then_pure)).congr ?_
          exact (List.append_assoc _ _ _).symm
      | rotation info x y z s =>
          have first := (parts x (by simp [Expr.parts])).demanded uses_demand_float
          have second := (parts y (by simp [Expr.parts])).demanded uses_demand_float
          have third := (parts z (by simp [Expr.parts])).demanded uses_demand_float
          have fourth := (parts s (by simp [Expr.parts])).demanded uses_demand_float
          rw [validateExpr, checkExpr]
          refine ((first state).bind ((second _).bind ((third _).bind (fourth _).then_pure))).congr ?_
          simp [Expr.uses]
      | list info inner elements =>
          rw [validateExpr, checkExpr]
          exact (validate_exprs_run (fun expr => expr.uses_demand _ _) parts state).then_pure
      | reference info name binding =>
          rw [validateExpr, checkExpr]
          exact validate_reference_runs state info name
      | call info name inner arguments target =>
          have given := validate_exprs_run uses_pure parts state
          rw [validateExpr, checkExpr]
          exact (given.bind (validate_call_runs _ info name inner _)).congr
            (uses_check_call state.view info name inner _).symm
      | binary info operator left right =>
          have first := parts left (by simp [Expr.parts]) state
          have second := parts right (by simp [Expr.parts])
          rw [validateExpr, checkExpr]
          exact (first.bind (second _).then_tell).congr (uses_check_binary info operator _ _).symm
      | prefixed info operator operand =>
          have inner := parts operand (by simp [Expr.parts]) state
          rw [validateExpr, checkExpr]
          exact inner.then_tell.congr (uses_check_prefixed info operator _).symm
      | postfixed info operator operand =>
          have inner := parts operand (by simp [Expr.parts]) state
          rw [validateExpr, checkExpr]
          exact inner.then_tell.congr (uses_check_postfixed info operator _).symm
      | cast info target operand =>
          have inner := parts operand (by simp [Expr.parts]) state
          rw [validateExpr, checkExpr]
          exact inner.then_tell.congr (uses_check_cast info target _).symm
      | component info part operand =>
          have inner := parts operand (by simp [Expr.parts]) state
          rw [validateExpr, checkExpr]
          exact inner.then_tell.congr (uses_check_component info part _).symm
      | grouped info operand =>
          have inner := parts operand (by simp [Expr.parts]) state
          rw [validateExpr, checkExpr]
          exact inner.then_pure

theorem validate_condition_runs (condition : Expr) (state : Validator) :
    Runs (validateCondition condition) state (checkCondition state.view condition)
      (checkCondition state.view condition).value.uses :=
  (validate_expr_runs condition).demanded (fun expr => expr.uses_demand _ _) state

theorem validate_initializer_runs (type : ValueType) (initializer : Expr) (state : Validator) :
    Runs (validateInitializer type initializer) state (checkInitializer state.view type initializer)
      (checkInitializer state.view type initializer).value.uses :=
  (validate_expr_runs initializer).demanded (fun expr => expr.uses_demand _ _) state

theorem Expr.option_uses_eq (value : Option Expr) :
    value.elim [] Expr.uses = Expr.optionUses value := by
  cases value <;> rfl

theorem ExprList.option_uses_eq (value : Option ExprList) :
    value.elim [] (fun list => Expr.listUses list.members) = ExprList.optionUses value := by
  cases value <;> rfl

theorem validate_option_runs {α : Type} {validate : α → Validation α} {state : Validator}
    {check : α → Checked α} (uses : α → List Use)
    (each : ∀ value, Runs (validate value) state (check value) (uses (check value).value))
    (value : Option α) :
    Runs (validateOption validate value) state (checkOption check value)
      ((checkOption check value).value.elim [] uses) := by
  cases value with
  | none => exact .of_pure none
  | some value => exact (each value).then_pure

theorem validate_expr_list_runs (list : ExprList) (state : Validator) :
    Runs (validateExprList list) state (checkExprList state.view list)
      (Expr.listUses (checkExprList state.view list).value.members) :=
  (validate_exprs_run uses_pure (fun expr _ => validate_expr_runs expr) state).then_pure

end Expressions

section Statements

namespace Validator

/-- The state behind a checked statement: a declaration adds its variable to the innermost scope,
unless it was refused. -/
def behind (state : Validator) (scopes : List Nat) : Stmt → Validator
  | .declare info decl =>
    if info.faulty then state
    else
      let binding := Binding.inScope info.span.start.offset (scopes.headD 0)
      state.declare ⟨decl.name, decl.type, binding⟩ info.span
  | _ => state

variable {state : Validator}

theorem behind_of_plain {stmt : Stmt} (plain : stmt.declaration? = none) (scopes : List Nat) :
    state.behind scopes stmt = state := by
  cases stmt <;> first | rfl | cases plain

theorem behind_refused {info : StmtInfo} (faulty : info.faulty = true) (decl : Variable)
    (scopes : List Nat) : state.behind scopes (.declare info decl) = state :=
  if_pos faulty

theorem behind_declared {info : StmtInfo} (fine : info.faulty = false) (decl : Variable)
    (scopes : List Nat) :
    state.behind scopes (.declare info decl) =
      state.declare ⟨decl.name, decl.type, .inScope info.span.start.offset (scopes.headD 0)⟩
        info.span :=
  if_neg (by simp [fine])

theorem declare_told (reports : List Diagnostic) (uses : List Use) (found : Visible) (span : Span) :
    (state.told reports uses).declare found span = (state.declare found span).told reports uses := by
  obtain ⟨_, _, _, _, _, environments, _, _, _, _⟩ := state
  cases environments <;> rfl

theorem behind_told (reports : List Diagnostic) (uses : List Use) (scopes : List Nat) (stmt : Stmt) :
    (state.told reports uses).behind scopes stmt = (state.behind scopes stmt).told reports uses := by
  cases stmt with
  | declare info decl =>
      cases faulty : info.faulty with
      | true => rw [behind_refused faulty, behind_refused faulty]
      | false => rw [behind_declared faulty, behind_declared faulty, declare_told]
  | _ => rfl

theorem behind_all_told (reports : List Diagnostic) (uses : List Use) (scopes : List Nat)
    (body : List Stmt) : body.foldl (·.behind scopes ·) (state.told reports uses) =
      (body.foldl (·.behind scopes ·) state).told reports uses := by
  induction body generalizing state with
  | nil => rfl
  | cons stmt body induction => rw [List.foldl_cons, behind_told, induction, List.foldl_cons]

/-- In the innermost scope the variable is known, and so is its place. -/
theorem behind_enter (state : Validator) (environment : Environment) (scopes : List Nat) (stmt : Stmt) :
    ∃ visible, (state.enter environment).behind scopes stmt =
      state.enter ⟨visible, environment.declarations ++ stmt.declared?.toList⟩ := by
  have same : state.enter environment = state.enter
      ⟨environment.visible, environment.declarations ++ ([] : List (String × Span))⟩ := by
    rw [List.append_nil]
  cases stmt with
  | declare info decl =>
      cases faulty : info.faulty with
      | true =>
          have refused : (Stmt.declare info decl).declared? = none := if_pos faulty
          rw [behind_refused faulty, refused]
          exact ⟨environment.visible, same⟩
      | false =>
          have declared : (Stmt.declare info decl).declared? = some (decl.name, info.span) :=
            if_neg (by simp [faulty])
          rw [behind_declared faulty, declared]
          exact ⟨_, rfl⟩
  | _ => exact ⟨environment.visible, same⟩

theorem behind_all_enter (state : Validator) (environment : Environment) (scopes : List Nat)
    (body : List Stmt) :
    ∃ visible, body.foldl (·.behind scopes ·) (state.enter environment) =
      state.enter ⟨visible, environment.declarations ++ body.filterMap Stmt.declared?⟩ := by
  induction body generalizing environment with
  | nil => exact ⟨environment.visible, by simp⟩
  | cons stmt body induction =>
      obtain ⟨visible, own⟩ := behind_enter state environment scopes stmt
      obtain ⟨all, others⟩ := induction ⟨visible, environment.declarations ++ stmt.declared?.toList⟩
      refine ⟨all, ?_⟩
      rw [List.foldl_cons, own, others]
      cases declared : stmt.declared? <;> simp [declared]

end Validator

/-- The validator has come to where the frame is, and has met none but these uses. -/
structure Frame.Shown (final : List Use) (frame : Frame) (state : Validator) : Prop where
  seen : state.uses ⊆ final
  view : state.view = frame.view
  states : state.states = frame.states
  labels : state.labels = frame.labels
  context : state.context = .body frame.owner
  inside : state.environments ≠ []

namespace Frame.Shown

variable {final : List Use} {frame : Frame} {state : Validator} (shown : frame.Shown final state)

include shown

theorem told (reports : List Diagnostic) {uses : List Use} (made : uses ⊆ final) :
    frame.Shown final (state.told reports uses) :=
  ⟨List.append_subset.mpr ⟨shown.seen, made⟩, shown.view, shown.states, shown.labels, shown.context,
    shown.inside⟩

theorem enter (scope : ScopeInfo) : (frame.enter scope).Shown final (state.enter {}) :=
  ⟨shown.seen, shown.view, shown.states, shown.labels, shown.context, List.cons_ne_nil _ _⟩

theorem behind (stmt : Stmt) :
    (frame.behind stmt).Shown final (state.behind frame.scopes stmt) := by
  cases stmt with
  | declare info decl =>
      cases faulty : info.faulty with
      | true =>
          have refused : frame.behind (.declare info decl) = frame := if_pos faulty
          rw [refused, Validator.behind_refused faulty]
          exact shown
      | false =>
          have declared : frame.behind (.declare info decl) = { frame with
              view := frame.view.declareLocal ⟨decl.name, decl.type,
                .inScope info.span.start.offset (frame.scopes.headD 0)⟩ } :=
            if_neg (by simp [faulty])
          obtain ⟨environment, environments, known⟩ := List.exists_cons_of_ne_nil shown.inside
          rw [declared, Validator.behind_declared faulty, Validator.declare, known, ← shown.view]
          refine ⟨shown.seen, ?_, shown.states, shown.labels, shown.context, List.cons_ne_nil _ _⟩
          simp [Validator.view, View.declareLocal, known]
  | _ => exact shown

theorem label (name : String) : state.label? name = frame.label? name := by
  rw [Validator.label?, Frame.label?, shown.labels]

end Frame.Shown

/-- Whatever is used of what is declared directly in the scope is used in the scope. -/
def CodeScope.Closes (final : List Use) (scope : CodeScope) : Prop :=
  ∀ found ∈ scope.body.filterMap Stmt.declared?, Use.isUsed final found.2.start.offset = true →
    Use.isUsed (Stmt.listUses scope.body) found.2.start.offset = true

/-- All uses in the scope are among these, and whatever is used of what is declared in it is used in
it. -/
structure CodeScope.Known (final : List Use) (scope : CodeScope) : Prop where
  uses : Stmt.listUses scope.body ⊆ final
  closes : ∀ inner ∈ scope.scopes, inner.Closes final

/-- The statements of a scope are validated as they are checked in a frame. -/
def CodeScope.RunsChecked (final : List Use) (scope : CodeScope) : Prop :=
  ∀ (frame : Frame) (state : Validator), frame.Shown final state →
    (scope.checked frame).Known final →
    Runs (inScope (validateStmts (scope.info.id :: frame.scopes) scope.body)) state
      (checkStmts (frame.enter scope.info) scope.body >>= closeScope)
      (Stmt.listUses (scope.checked frame).body)

variable {final : List Use} {frame : Frame} {state : Validator}

/-- At the end of a scope it makes no difference whether all uses so far or those in the scope are
asked for. -/
theorem leave_scope_run {body : List Stmt} (visible : List Visible) (reports : List Diagnostic)
    (seen : state.uses ⊆ final) (info : ScopeInfo) (made : Stmt.listUses body ⊆ final)
    (closes : CodeScope.Closes final ⟨info, body⟩) :
    leaveScope.run ((state.enter ⟨visible, body.filterMap Stmt.declared?⟩).told reports
        (Stmt.listUses body)) =
      ((), state.told (reports ++ (closeScope body).reports) (Stmt.listUses body)) := by
  have same : (body.filterMap Stmt.declared?).filter (fun found =>
        !Use.isUsed (state.uses ++ Stmt.listUses body) found.2.start.offset) =
      unusedVariables body := by
    refine List.filter_congr fun found declared => congrArg (! ·) (Bool.eq_iff_iff.mpr ⟨?_, ?_⟩)
    · intro used
      refine closes found declared ?_
      obtain ⟨use, member, same⟩ := Use.is_used_iff.mp used
      exact Use.is_used_iff.mpr ⟨use, List.append_subset.mpr ⟨seen, made⟩ member, same⟩
    · intro used
      obtain ⟨use, member, same⟩ := Use.is_used_iff.mp used
      exact Use.is_used_iff.mpr ⟨use, List.mem_append_right _ member, same⟩
  have told := Runs.of_tell (state.told reports (Stmt.listUses body))
    (⟨(), (closeScope body).reports⟩ : Checked Unit)
  rw [Runs, Validator.told_told, List.append_nil] at told
  rw [← told, closeScope, ← same]
  rfl

theorem in_scope_runs {statements : Validation (List Stmt)} {checked : Checked (List Stmt)}
    {visible : List Visible}
    (run : statements.run (state.enter {}) = (checked.value,
      (state.enter ⟨visible, checked.value.filterMap Stmt.declared?⟩).told checked.reports
        (Stmt.listUses checked.value)))
    (seen : state.uses ⊆ final) (info : ScopeInfo) (made : Stmt.listUses checked.value ⊆ final)
    (closes : CodeScope.Closes final ⟨info, checked.value⟩) :
    Runs (inScope statements) state (checked >>= closeScope) (Stmt.listUses checked.value) := by
  have steps : (inScope statements).run state =
      ((statements.run (state.enter {})).1,
        (leaveScope.run (statements.run (state.enter {})).2).2) := rfl
  rw [Runs, steps, run, leave_scope_run visible _ seen info made closes]
  rfl

theorem validate_alternatives_run {rest : Alternatives} {state : Validator}
    (parts : ∀ part ∈ rest.parts, part.RunsChecked final) (shown : frame.Shown final state)
    (made : (checkAlternatives frame rest).value.uses ⊆ final)
    (known : ∀ part ∈ rest.parts, (part.checked frame).Known final) :
    Runs (validateAlternatives frame.scopes rest) state (checkAlternatives frame rest)
      (checkAlternatives frame rest).value.uses := by
  match rest with
  | .done => exact .of_pure _
  | .elseIf span condition scope body rest =>
      obtain ⟨first, others⟩ := List.forall_mem_cons.mp parts
      obtain ⟨own, later⟩ := List.forall_mem_cons.mp known
      obtain ⟨front, back⟩ := List.append_subset.mp made
      have tested := validate_condition_runs condition state
      rw [shown.view] at tested
      have behind := shown.told (checkCondition frame.view condition).reports
        (List.append_subset.mp front).1
      have entered := first frame _ behind own
      have ended (reports : List Diagnostic) :=
        validate_alternatives_run others (behind.told reports own.uses) back later
      rw [validateAlternatives, checkAlternatives]
      exact (tested.bind (entered.bind (ended _).then_pure)).congr (List.append_assoc _ _ _).symm
  | .otherwise span scope body =>
      have own := parts ⟨scope, body⟩ List.mem_cons_self
      rw [validateAlternatives, checkAlternatives]
      exact (own frame state shown (known ⟨scope, body⟩ List.mem_cons_self)).then_pure

section Declarations

variable {info : StmtInfo} {decl : Variable}

theorem check_declaration_refused {problem : Problem}
    (refused : declarationProblem? frame.view decl.name = some problem) :
    let initial := checkOption (checkInitializer frame.view decl.type) decl.initializer
    checkDeclaration frame info decl =
      ⟨.declare { info with faulty := true } { decl with initializer := initial.value },
        initial.reports ++ [⟨problem, info.span⟩]⟩ := by
  simp only [checkDeclaration, refused]
  rfl

theorem check_declaration_free (free : declarationProblem? frame.view decl.name = none) :
    let initial := checkOption (checkInitializer frame.view decl.type) decl.initializer
    checkDeclaration frame info decl =
      ⟨.declare info { decl with initializer := initial.value }, initial.reports⟩ := by
  simp only [checkDeclaration, free]
  exact congrArg (Checked.mk _) (List.append_nil _)

/-- A declaration adds its variable unless it is refused. -/
theorem validate_declaration_run (shown : frame.Shown final state) (fine : info.faulty = false) :
    (validateDeclaration frame.scopes info decl).run state =
      ((checkDeclaration frame info decl).value,
        (state.behind frame.scopes (checkDeclaration frame info decl).value).told
          (checkDeclaration frame info decl).reports
          (checkDeclaration frame info decl).value.uses) := by
  have initial := validate_option_runs Expr.uses
    (fun value => validate_initializer_runs decl.type value state) decl.initializer
  rw [shown.view, Expr.option_uses_eq] at initial
  unfold validateDeclaration
  rw [initial.run_bind, Validator.run_get, Validator.view_told, shown.view]
  cases refused : declarationProblem? frame.view decl.name with
  | some problem =>
      dsimp only
      rw [check_declaration_refused refused, (Runs.of_tell _ (info.blame problem)).run_bind,
        Validator.behind_refused rfl, Validator.told_told, List.append_nil]
      rfl
  | none =>
      rw [check_declaration_free refused, Validator.behind_declared fine, ← Validator.declare_told]
      rfl

end Declarations

theorem validate_return_runs (shown : frame.Shown final state) (info : StmtInfo)
    (value : Option Expr) :
    Runs (validateReturn info value) state (checkReturn frame info value)
      (checkReturn frame info value).value.uses := by
  unfold validateReturn checkReturn
  refine .of_get ?_
  rw [shown.context]
  cases value with
  | none =>
      rw [checkOption]
      cases frame.owner with
      | handler event => exact .of_pure _
      | function name returns =>
          cases returns with
          | void => exact .of_pure _
          | _ => exact (Runs.of_tell _ _).then_pure
  | some value =>
      have given := validate_expr_runs value state
      rw [shown.view] at given
      rw [checkOption, Checked.bind_bind]
      cases frame.owner with
      | handler event =>
          exact (given.bind (Runs.of_tell _ _).then_pure).congr (List.append_nil _)
      | function name returns =>
          have demanded (admits : ValueType → Bool) (problem : ValueType → Problem) :=
            (Expr.uses_demand (checkExpr frame.view value).value admits problem).symm
          cases returns with
          | void => exact (given.bind (Runs.of_tell _ _).then_pure).congr (List.append_nil _)
          | _ =>
              exact (given.bind (Runs.of_tell _ _).then_pure).congr
                ((List.append_nil _).trans (demanded _ _))

theorem validate_jump_runs (shown : frame.Shown final state) (info : StmtInfo) (name : String) :
    Runs (validateJump frame.scopes info name) state (checkJump frame info name)
      (checkJump frame info name).value.uses := by
  unfold validateJump checkJump
  refine .of_get ?_
  rw [shown.label]
  cases frame.label? name with
  | none => exact (Runs.of_tell _ _).then_pure
  | some label =>
      dsimp only
      split
      · change Runs _ state (pure info >>= fun info => pure (Stmt.jump info name (some _))) _
        exact (Runs.of_tell _ _).bind (.of_use _ _ _ _)
      · exact (Runs.of_tell _ _).bind (.of_use _ _ _ _)

theorem validate_state_change_runs (shown : frame.Shown final state) (info : StmtInfo)
    (name : String) :
    Runs (validateStateChange info name) state (checkStateChange frame info name)
      (checkStateChange frame info name).value.uses := by
  unfold validateStateChange checkStateChange
  refine .of_get ?_
  rw [shown.states, shown.context]
  cases frame.states.lookup name with
  | none => exact (Runs.of_tell _ _).then_pure
  | some start =>
      cases frame.owner with
      | function owner returns =>
          exact (Runs.of_used (Runs.of_tell _ _).then_pure).congr (List.append_nil _)
      | handler event =>
          exact (Runs.of_used (Runs.of_tell _ _).then_pure).congr (List.append_nil _)

theorem validate_label_runs (shown : frame.Shown final state) (info : StmtInfo) (name : String) :
    Runs (validateLabel info name) state (pure (checkLabel frame info name)) [] := by
  unfold validateLabel checkLabel
  refine .of_get ?_
  rw [shown.label]
  exact .of_pure _

theorem validate_clause_runs (list : Option ExprList) {state : Validator}
    (shown : frame.Shown final state) :
    Runs (validateOption validateExprList list) state
      (checkOption (checkExprList frame.view) list)
      (ExprList.optionUses (checkOption (checkExprList frame.view) list).value) := by
  have given := validate_option_runs (Expr.listUses ·.members)
    (fun list => validate_expr_list_runs list state) list
  rwa [shown.view, ExprList.option_uses_eq] at given

theorem validate_test_runs (condition : Option Expr) {state : Validator}
    (shown : frame.Shown final state) :
    Runs (validateOption validateCondition condition) state
      (checkOption (checkCondition frame.view) condition)
      (Expr.optionUses (checkOption (checkCondition frame.view) condition).value) := by
  have given := validate_option_runs Expr.uses
    (fun value => validate_condition_runs value state) condition
  rwa [shown.view, Expr.option_uses_eq] at given

/-- A statement that declares nothing leaves the state as it is, apart from what it reports and
uses. -/
theorem validate_plain_runs {stmt : Stmt} (plain : stmt.declaration? = none)
    (parts : ∀ part ∈ stmt.parts, part.RunsChecked final) (shown : frame.Shown final state)
    (made : (checkStmt frame stmt).value.uses ⊆ final)
    (known : ∀ part ∈ stmt.parts, (part.checked frame).Known final) :
    Runs (validateStmt frame.scopes stmt) state (checkStmt frame stmt)
      (checkStmt frame stmt).value.uses := by
  cases stmt with
  | block scope body =>
      have own := parts _ List.mem_cons_self frame state shown (known _ List.mem_cons_self)
      rw [validateStmt, checkStmt]
      exact own.then_pure
  | declare info decl => cases plain
  | perform info value =>
      have given := validate_expr_runs value state
      rw [shown.view] at given
      rw [validateStmt, checkStmt]
      exact given.then_pure
  | giveBack info value =>
      rw [validateStmt, checkStmt]
      exact validate_return_runs shown info value
  | jump info name target =>
      rw [validateStmt, checkStmt]
      exact validate_jump_runs shown info name
  | label info name =>
      rw [validateStmt, checkStmt]
      exact validate_label_runs shown info name
  | changeState info name target =>
      rw [validateStmt, checkStmt]
      exact validate_state_change_runs shown info name
  | branch info first condition scope body rest =>
      obtain ⟨inside, others⟩ := List.forall_mem_cons.mp parts
      obtain ⟨own, later⟩ := List.forall_mem_cons.mp known
      obtain ⟨front, back⟩ := List.append_subset.mp made
      have tested := validate_condition_runs condition state
      rw [shown.view] at tested
      have behind := shown.told (checkCondition frame.view condition).reports
        (List.append_subset.mp front).1
      have entered := inside frame _ behind own
      have ended (reports : List Diagnostic) :=
        validate_alternatives_run others (behind.told reports own.uses) back later
      rw [validateStmt, checkStmt]
      exact (tested.bind (entered.bind (ended _).then_pure)).congr (List.append_assoc _ _ _).symm
  | whileLoop info condition scope body =>
      have tested := validate_condition_runs condition state
      rw [shown.view] at tested
      have behind := shown.told (checkCondition frame.view condition).reports
        (List.append_subset.mp made).1
      have entered := parts _ List.mem_cons_self frame _ behind (known _ List.mem_cons_self)
      rw [validateStmt, checkStmt]
      exact tested.bind entered.then_pure
  | doLoop info scope body condition =>
      have entered := parts _ List.mem_cons_self frame state shown (known _ List.mem_cons_self)
      have tested (after : Validator) := validate_condition_runs condition after
      rw [validateStmt, checkStmt, ← shown.view]
      exact entered.bind (tested _).then_pure
  | forLoop info init condition afterthought scope body =>
      obtain ⟨front, inside⟩ := List.append_subset.mp made
      obtain ⟨front, after⟩ := List.append_subset.mp front
      obtain ⟨first, second⟩ := List.append_subset.mp front
      have initial := validate_clause_runs init shown
      have before := shown.told (checkOption (checkExprList frame.view) init).reports first
      have tested := validate_test_runs condition before
      have met := before.told (checkOption (checkCondition frame.view) condition).reports second
      have stepped := validate_clause_runs afterthought met
      have behind := met.told (checkOption (checkExprList frame.view) afterthought).reports after
      have entered := parts _ List.mem_cons_self frame _ behind (known _ List.mem_cons_self)
      rw [validateStmt, checkStmt]
      refine (initial.bind (tested.bind (stepped.bind entered.then_pure))).congr ?_
      rw [← List.append_assoc, ← List.append_assoc]
      rfl
  | empty info | broken span => exact .of_pure _

/-- A statement leaves the state as the statements behind it need it. -/
theorem validate_stmt_run {stmt : Stmt} (clean : stmt.hasErrors = false)
    (parts : ∀ part ∈ stmt.parts, part.RunsChecked final) (shown : frame.Shown final state)
    (made : (checkStmt frame stmt).value.uses ⊆ final)
    (known : ∀ part ∈ stmt.parts, (part.checked frame).Known final) :
    (validateStmt frame.scopes stmt).run state =
      ((checkStmt frame stmt).value,
        (state.behind frame.scopes (checkStmt frame stmt).value).told (checkStmt frame stmt).reports
          (checkStmt frame stmt).value.uses) := by
  cases declares : stmt.declaration? with
  | none =>
      have plain : (checkStmt frame stmt).value.declaration? = none :=
        (Stmt.keeps_check frame stmt).declaration.trans declares
      rw [Validator.behind_of_plain plain]
      exact validate_plain_runs declares parts shown made known
  | some start =>
      cases stmt with
      | declare info decl =>
          have fine : info.faulty = false := (Bool.or_eq_false_iff.mp clean).1
          rw [validateStmt, checkStmt]
          exact validate_declaration_run shown fine
      | _ => cases declares

theorem CodeScope.runs_checked {part : CodeScope}
    (run : ∀ {frame : Frame} {state : Validator}, frame.Shown final state →
      Stmt.listUses (checkStmts frame part.body).value ⊆ final →
      (∀ scope ∈ Stmt.listScopes (checkStmts frame part.body).value, scope.Closes final) →
      (validateStmts frame.scopes part.body).run state =
        ((checkStmts frame part.body).value,
          ((checkStmts frame part.body).value.foldl (·.behind frame.scopes ·) state).told
            (checkStmts frame part.body).reports
            (Stmt.listUses (checkStmts frame part.body).value))) :
    part.RunsChecked final := by
  intro frame state shown known
  have inside := run (shown.enter part.info) known.uses fun scope inside =>
    known.closes scope (List.mem_cons_of_mem _ inside)
  obtain ⟨visible, same⟩ := Validator.behind_all_enter state {}
    (frame.enter part.info).scopes (checkStmts (frame.enter part.info) part.body).value
  rw [same] at inside
  exact in_scope_runs inside shown.seen part.info known.uses
    (known.closes _ List.mem_cons_self)

/-- Statements are validated one by one, and each leaves the state for those behind it. -/
theorem validate_stmts_run {body : List Stmt} (clean : Stmt.listHasErrors body = false)
    {frame : Frame} {state : Validator} (shown : frame.Shown final state)
    (made : Stmt.listUses (checkStmts frame body).value ⊆ final)
    (closes : ∀ scope ∈ Stmt.listScopes (checkStmts frame body).value, scope.Closes final) :
    (validateStmts frame.scopes body).run state =
      ((checkStmts frame body).value,
        ((checkStmts frame body).value.foldl (·.behind frame.scopes ·) state).told
          (checkStmts frame body).reports (Stmt.listUses (checkStmts frame body).value)) := by
  induction body using Stmt.list_induction generalizing frame state with
  | nil => exact (Runs.of_pure [] : Runs _ state _ _)
  | cons stmt rest inner outer =>
      obtain ⟨own, others⟩ := Bool.or_eq_false_iff.mp clean
      obtain ⟨front, back⟩ := List.append_subset.mp made
      rw [Stmt.value_check_cons, Stmt.listScopes] at closes
      have parts : ∀ part ∈ stmt.parts, part.RunsChecked final := by
        intro part member
        exact part.runs_checked (inner part member ((Stmt.has_errors_iff.mp own).2.2 part member))
      have known : ∀ part ∈ stmt.parts, (part.checked frame).Known final := by
        intro part member
        have checked : part.checked frame ∈ (checkStmt frame stmt).value.parts := by
          rw [Stmt.parts_check]
          exact List.mem_map_of_mem member
        refine ⟨fun use made => front (Stmt.uses_of_part checked made), fun scope inside => ?_⟩
        refine closes scope (List.mem_append_left _ ?_)
        rw [Stmt.scopes_eq]
        exact List.mem_flatMap.mpr ⟨_, checked, inside⟩
      have first := validate_stmt_run own parts shown front known
      have behind := (shown.behind (checkStmt frame stmt).value).told (checkStmt frame stmt).reports
        front
      have later := outer others behind back fun scope inside =>
        closes scope (List.mem_append_right _ inside)
      have steps : (validateStmts frame.scopes (stmt :: rest)).run state =
          let one := (validateStmt frame.scopes stmt).run state
          let more := (validateStmts frame.scopes rest).run one.2
          (one.1 :: more.1, more.2) := by
        rw [validateStmts]
        rfl
      rw [Frame.scopes_behind, Validator.behind_all_told, Validator.told_told] at later
      have reports : (checkStmts frame (stmt :: rest)).reports = (checkStmt frame stmt).reports ++
          (checkStmts (frame.behind (checkStmt frame stmt).value) rest).reports := by
        simp [checkStmts]
      rw [steps, first, reports]
      dsimp only
      rw [later]
      rfl

end Statements

end Lsl
