import Lsl.Proofs.Checking.Binding
import Mathlib.Data.List.Flatten

/-!
What is remarked about a script: variables that nothing uses and code that cannot be reached. The
former are told when scopes are closed, the latter when a body is settled, and nothing else remarks
anything; so all remarks about a script are those on the bodies that are looked into. Settling a body
does not change what nothing in it uses, so what is reported as unused is unused in the end.
-/

set_option autoImplicit false

namespace Lsl

/-- What the problem is about is of no use. -/
def Problem.isRemark : Problem → Bool
  | .unusedVariable _ => true
  | .deadCode => true
  | _ => false

def Diagnostic.isRemark (report : Diagnostic) : Bool := report.problem.isRemark

def Checked.remarks {α : Type} (checked : Checked α) : List Diagnostic :=
  checked.reports.filter Diagnostic.isRemark

theorem Checked.filter_map_remarks {α β : Type} {tell : Diagnostic → Option β}
    (other : ∀ report : Diagnostic, report.isRemark = false → tell report = none)
    (checked : Checked α) : checked.reports.filterMap tell = checked.remarks.filterMap tell := by
  rw [remarks, List.filterMap_filter]
  refine List.filterMap_congr fun report _ => ?_
  cases remark : report.isRemark with
  | true => rw [if_pos rfl]
  | false => rw [other report remark, if_neg (by decide)]

section

variable {α β : Type}

@[simp] theorem remarks_pure (value : α) : (pure value : Checked α).remarks = [] := rfl

@[simp] theorem remarks_bind (first : Checked α) (next : α → Checked β) :
    (first >>= next).remarks = first.remarks ++ (next first.value).remarks := by
  simp [Checked.remarks]

theorem remarks_report {span : Span} {problem : Problem} (other : problem.isRemark = false) :
    (report span problem).remarks = [] := by
  simp [Checked.remarks, report, Diagnostic.isRemark, other]

@[simp] theorem remarks_close (body : List Stmt) :
    (closeScope body).remarks = (closeScope body).reports := by
  refine List.filter_eq_self.mpr fun report member => ?_
  obtain ⟨unused, _, rfl⟩ := List.mem_map.mp member
  rfl

theorem remarks_dead_code (regions : List Span) :
    (regions.forM (report · .deadCode)).remarks = regions.map (⟨.deadCode, ·⟩) := by
  induction regions with
  | nil => rfl
  | cons region regions induction =>
      rw [List.forM, remarks_bind, induction]
      rfl

end

section

theorem remarks_blame (expr : Expr) {problem : Problem} (other : problem.isRemark = false) :
    (expr.blame problem).remarks = [] := by
  simp [Checked.remarks, Expr.blame, Diagnostic.isRemark, other]

theorem remarks_demand (expr : Expr) (admits : ValueType → Bool) {problem : ValueType → Problem}
    (other : ∀ type, (problem type).isRemark = false) :
    (expr.demand admits problem).remarks = [] := by
  unfold Expr.demand
  split
  · split
    · rfl
    · exact remarks_blame expr (other _)
  · rfl

theorem remarks_ite_blame (fine : Prop) [Decidable fine] (expr : Expr) {problem : Problem}
    (other : problem.isRemark = false) :
    (if fine then pure expr else expr.blame problem : Checked Expr).remarks = [] := by
  split
  · rfl
  · exact remarks_blame expr other

@[simp] theorem remarks_check_target (expr : Expr) : (checkTarget expr).remarks = [] := by
  match expr with
  | .reference info name binding => cases binding <;> rfl
  | .component info part target =>
      have inner := remarks_check_target target
      simpa [checkTarget] using inner
  | .integer _ _ | .hex _ _ | .float _ _ | .string _ _ | .vector _ _ _ _ | .rotation _ _ _ _ _
  | .list _ _ _ | .call _ _ _ _ _ | .binary _ _ _ _ | .prefixed _ _ _ | .postfixed _ _ _
  | .cast _ _ _ | .grouped _ _ => rfl

@[simp] theorem remarks_fit_arguments (function : String) (place : Nat) (arguments : List Expr)
    (types : List ValueType) : (fitArguments function place arguments types).remarks = [] := by
  induction arguments generalizing place types with
  | nil => cases types <;> rfl
  | cons argument arguments induction =>
      cases types with
      | nil => rfl
      | cons expected types =>
          have own : (argument.demand (·.convertsTo expected)
              (.argumentType function place expected ·)).remarks = [] :=
            remarks_demand argument _ fun _ => rfl
          simp [fitArguments, own, induction]

variable (view : View) (info : ExprInfo) (name : String) (inner : Span) (arguments : List Expr)

theorem remarks_check_arguments (target : CallTarget) (parameters : List ValueType) :
    (checkArguments info name inner arguments target parameters).remarks = [] := by
  unfold checkArguments
  split
  · exact remarks_blame _ rfl
  · simp

theorem remarks_check_library_call (types : List ValueType) :
    (checkLibraryCall view info name inner arguments types).remarks = [] := by
  unfold checkLibraryCall
  split
  · unfold checkUnresolvedCall
    dsimp only
    split
    · split
      · exact remarks_blame _ rfl
      · exact remarks_check_arguments _ name inner arguments _ _
    · exact remarks_blame _ rfl
  · split <;> rfl

@[simp] theorem remarks_check_call :
    (checkCall view info name inner arguments).remarks = [] := by
  unfold checkCall
  split
  · exact remarks_check_arguments _ name inner arguments _ _
  · dsimp only
    split
    · exact remarks_blame _ rfl
    · split
      · rfl
      · exact remarks_check_library_call view info name inner arguments _

@[simp] theorem remarks_type_operation (operator : BinaryOperator) (left right : Expr) :
    (typeOperation info operator left right).remarks = [] := by
  unfold typeOperation
  split
  · refine remarks_ite_blame _ _ ?_
    unfold operandProblem
    split <;> rfl
  · rfl

@[simp] theorem remarks_check_binary (operator : BinaryOperator) (left right : Expr) :
    (checkBinary info operator left right).remarks = [] := by
  unfold checkBinary
  split
  · rw [remarks_bind, remarks_check_target]
    dsimp only
    split <;> simp
  · simp

@[simp] theorem remarks_type_prefixed (operator : PrefixOperator) (operand : Expr)
    (type : ValueType) : (typePrefixed info operator operand type).remarks = [] :=
  remarks_ite_blame _ _ rfl

@[simp] theorem remarks_check_prefixed (operator : PrefixOperator) (operand : Expr) :
    (checkPrefixed info operator operand).remarks = [] := by
  unfold checkPrefixed
  split
  · rfl
  · split
    · rw [remarks_bind, remarks_check_target, List.nil_append]
      dsimp only
      split
      · simp
      · split
        · rfl
        · exact remarks_blame _ rfl
    · simp

@[simp] theorem remarks_check_postfixed (operator : PostfixOperator) (operand : Expr) :
    (checkPostfixed info operator operand).remarks = [] := by
  unfold checkPostfixed
  rw [remarks_bind, remarks_check_target]
  dsimp only
  split
  · exact remarks_ite_blame _ _ rfl
  · rfl

@[simp] theorem remarks_check_cast (target : ValueType) (operand : Expr) :
    (checkCast info target operand).remarks = [] := by
  unfold checkCast
  split
  · rfl
  · exact remarks_ite_blame _ _ rfl

@[simp] theorem remarks_check_component (part : Component) (target : Expr) :
    (checkComponent info part target).remarks = [] := by
  unfold checkComponent
  split
  · rfl
  · split
    · rfl
    · exact remarks_blame _ rfl

@[simp] theorem remarks_check_reference : (checkReference view info name).remarks = [] := by
  unfold checkReference
  split
  · rfl
  · rename_i problem refused
    refine remarks_blame _ ?_
    unfold View.resolve at refused
    grind [Problem.isRemark]

end

@[simp] theorem remarks_demand_float (expr : Expr) : (demandFloat expr).remarks = [] :=
  remarks_demand expr _ fun _ => rfl

@[simp] theorem remarks_demand_element (expr : Expr) : (demandElement expr).remarks = [] :=
  remarks_demand expr _ fun _ => rfl

theorem remarks_check_exprs {view : View} {demand : Expr → Checked Expr} {exprs : List Expr}
    (quiet : ∀ expr, (demand expr).remarks = [])
    (each : ∀ expr ∈ exprs, (checkExpr view expr).remarks = []) :
    (checkExprs view demand exprs).remarks = [] := by
  induction exprs with
  | nil => rfl
  | cons expr rest induction =>
      have others := induction fun expr member => each expr (List.mem_cons_of_mem _ member)
      simp [checkExprs, quiet, others, each expr List.mem_cons_self]

/-- Expressions are never of no use. -/
@[simp] theorem remarks_check_expr (view : View) (expr : Expr) :
    (checkExpr view expr).remarks = [] := by
  induction expr using Expr.parts_induction with
  | step expr parts =>
      cases expr with
      | list info inner elements =>
          have members : (checkExprs view demandElement elements).remarks = [] :=
            remarks_check_exprs remarks_demand_element parts
          simp [checkExpr, members]
      | call info name inner arguments target =>
          have members : (checkExprs view pure arguments).remarks = [] :=
            remarks_check_exprs remarks_pure parts
          simp [checkExpr, members]
      | _ => simp_all [checkExpr, Expr.parts]

section

variable (view : View)

@[simp] theorem remarks_check_condition (condition : Expr) :
    (checkCondition view condition).remarks = [] := by
  rw [checkCondition, remarks_bind, remarks_check_expr]
  exact remarks_demand _ _ fun _ => rfl

@[simp] theorem remarks_check_initializer (type : ValueType) (initializer : Expr) :
    (checkInitializer view type initializer).remarks = [] := by
  rw [checkInitializer, remarks_bind, remarks_check_expr]
  exact remarks_demand _ _ fun _ => rfl

theorem remarks_check_option {α : Type} {check : α → Checked α}
    (quiet : ∀ value, (check value).remarks = []) (value : Option α) :
    (checkOption check value).remarks = [] := by
  cases value <;> simp [checkOption, quiet]

@[simp] theorem remarks_check_list (list : ExprList) : (checkExprList view list).remarks = [] := by
  have members := remarks_check_exprs remarks_pure fun expr (_ : expr ∈ list.members) =>
    remarks_check_expr view expr
  simp [checkExprList, members]

end

section

variable (frame : Frame) (info : StmtInfo)

theorem remarks_blame_stmt {problem : Problem} (other : problem.isRemark = false) :
    (info.blame problem).remarks = [] := by
  simp [Checked.remarks, StmtInfo.blame, Diagnostic.isRemark, other]

@[simp] theorem remarks_check_declaration (decl : Variable) :
    (checkDeclaration frame info decl).remarks = [] := by
  rw [checkDeclaration, remarks_bind, remarks_check_option (remarks_check_initializer frame.view _)]
  dsimp only
  split
  · rename_i problem refused
    have other : problem.isRemark = false := by
      unfold declarationProblem? at refused
      grind [Problem.isRemark]
    simp [remarks_blame_stmt info other]
  · rfl

@[simp] theorem remarks_check_return (value : Option Expr) :
    (checkReturn frame info value).remarks = [] := by
  have demanded (found : Expr) (returns : ValueType) :
      (found.demand (·.convertsTo returns) (.returnMismatch returns ·)).remarks = [] :=
    remarks_demand _ _ fun _ => rfl
  rw [checkReturn, remarks_bind, remarks_check_option (remarks_check_expr frame.view)]
  split
  · rfl
  · rfl
  · simp [demanded]
  · split <;> rfl
  · rfl

@[simp] theorem remarks_check_jump (name : String) : (checkJump frame info name).remarks = [] := by
  unfold checkJump
  split
  · rfl
  · dsimp only
    split <;> rfl

@[simp] theorem remarks_check_state_change (name : String) :
    (checkStateChange frame info name).remarks = [] := by
  unfold checkStateChange
  split
  · rfl
  · split <;> rfl

end

/-- What is remarked when the statements of a scope are checked and it is closed. -/
def CodeScope.remarks (frame : Frame) (scope : CodeScope) : List Diagnostic :=
  (checkStmts (frame.enter scope.info) scope.body >>= closeScope).remarks

/-- What is reported when a scope is closed. -/
def CodeScope.closing (scope : CodeScope) : List Diagnostic := (closeScope scope.body).reports

theorem Alternatives.remarks_check (frame : Frame) (rest : Alternatives) :
    (checkAlternatives frame rest).remarks = rest.parts.flatMap (CodeScope.remarks frame) := by
  cases rest with
  | done => rfl
  | elseIf _ condition _ _ rest =>
      have others := rest.remarks_check frame
      simp [checkAlternatives, Alternatives.parts, CodeScope.remarks, others]
  | otherwise _ _ _ => simp [checkAlternatives, Alternatives.parts, CodeScope.remarks]

namespace Stmt

/-- What is remarked in a statement is remarked when one of its scopes is closed. -/
theorem remarks_check (frame : Frame) (stmt : Stmt) :
    (checkStmt frame stmt).remarks = stmt.parts.flatMap (CodeScope.remarks frame) := by
  have condition := remarks_check_option (remarks_check_condition frame.view)
  have list := remarks_check_option (remarks_check_list frame.view)
  cases stmt <;>
    simp [checkStmt, parts, CodeScope.remarks, Alternatives.remarks_check, condition, list]

theorem remarks_check_cons (frame : Frame) (stmt : Stmt) (rest : List Stmt) :
    (checkStmts frame (stmt :: rest)).remarks = stmt.parts.flatMap (CodeScope.remarks frame) ++
      (checkStmts (frame.behind (checkStmt frame stmt).value) rest).remarks := by
  simp [checkStmts, remarks_check]

/-- What is remarked in statements is remarked when a scope of the checked ones is closed. -/
theorem list_remarks_check (frame : Frame) (body : List Stmt) :
    (checkStmts frame body).remarks.Perm
      ((listScopes (checkStmts frame body).value).flatMap CodeScope.closing) := by
  induction body using Stmt.list_induction generalizing frame with
  | nil => exact .refl _
  | cons stmt rest inner outer =>
      rw [remarks_check_cons, value_check_cons, listScopes, scopes_eq, List.flatMap_append,
        parts_check, List.flatMap_map, List.flatMap_assoc]
      refine .append (.flatMap_left _ fun part member => ?_) (outer _)
      rw [CodeScope.remarks, remarks_bind, remarks_close, CodeScope.scopes, List.flatMap_cons]
      exact List.perm_append_comm.trans (.append_left _ (inner part member _))

end Stmt

@[simp] theorem remarks_declare_labels (declared labels : List LabelPlace) :
    (declareLabels declared labels).remarks = [] := by
  induction labels generalizing declared with
  | nil => rfl
  | cons label labels induction =>
      unfold declareLabels
      split
      · rw [remarks_bind, induction]
        rfl
      · exact induction _

theorem remarks_report_at {span : Span} {problem? : Option Problem}
    (other : ∀ problem ∈ problem?, problem.isRemark = false) :
    (reportAt span problem?).remarks = [] := by
  cases problem? with
  | none => rfl
  | some problem =>
      have told : (report span problem).remarks = [] := remarks_report (other problem rfl)
      simpa [Checked.remarks, report, reportAt] using told

@[simp] theorem remarks_declare_parameters (library : Library) (declared : List Visible)
    (members : List ParameterDecl) : (declareParameters library declared members).remarks = [] := by
  induction members generalizing declared with
  | nil => rfl
  | cons decl members induction =>
      simp only [declareParameters, remarks_bind, remarks_pure, induction, List.append_nil]
      exact remarks_report_at (by grind [Problem.isRemark])

@[simp] theorem remarks_declare_functions (library : Library) (declared : List FunctionHeader)
    (list : List FunctionDecl) : (declareFunctions library declared list).remarks = [] := by
  induction list generalizing declared with
  | nil => rfl
  | cons decl list induction =>
      simp only [declareFunctions, remarks_bind, remarks_pure, induction, List.append_nil]
      exact remarks_report_at (by grind [Problem.isRemark])

@[simp] theorem remarks_declare_states (declared : List (String × Nat)) (list : List StateDecl) :
    (declareStates declared list).remarks = [] := by
  induction list generalizing declared with
  | nil => rfl
  | cons decl list induction =>
      simp only [declareStates, declareState, remarks_bind, remarks_pure, induction,
        List.append_nil]
      exact remarks_report_at (by grind [Problem.isRemark])

@[simp] theorem remarks_check_globals (view : View) (list : List GlobalDecl) :
    (checkGlobals view list).remarks = [] := by
  induction list generalizing view with
  | nil => rfl
  | cons decl list induction =>
      have initializer : (checkOption
          (checkGlobalInitializer view decl.decl.type decl.decl.name)
            decl.decl.initializer).remarks = [] := by
        refine remarks_check_option (fun value => ?_) _
        rw [checkGlobalInitializer, remarks_bind, remarks_check_initializer]
        exact remarks_ite_blame _ _ rfl
      simp only [checkGlobals, remarks_bind, remarks_pure, initializer, induction, List.append_nil,
        List.nil_append]
      exact remarks_report_at (by grind [Problem.isRemark])

/-- A body that is looked into, as it was read. -/
structure Inspection where
  outlook : Outlook
  owner : Owner
  parameters : ParameterList
  scope : CodeScope

namespace Inspection

variable (inspection : Inspection)

def result : Checked (ParameterList × List Stmt) :=
  checkBody inspection.outlook inspection.owner inspection.parameters inspection.scope.info
    inspection.scope.body

/-- The body as it is in the end. -/
def body : CodeScope := ⟨inspection.scope.info, inspection.result.value.2⟩

/-- What the first statement of the body refers to and where it stands. -/
def frame : Frame :=
  let labels := (declareLabels [] (Stmt.listLabels inspection.scope.info.id
    inspection.scope.body)).value
  let locals := (declareParameters inspection.outlook.view.library []
    inspection.parameters.members).value.2
  ⟨{ inspection.outlook.view with locals }, inspection.outlook.states, labels, inspection.owner,
    [inspection.scope.info.id]⟩

/-- The checked statements before any is marked as dead. -/
def unsettled : List Stmt := (checkStmts inspection.frame inspection.scope.body).value

/-- On a body is remarked what its scopes tell before it is settled, and then its dead code. -/
theorem remarks_result : inspection.result.remarks.Perm
    ((CodeScope.scopes ⟨inspection.scope.info, inspection.unsettled⟩).flatMap CodeScope.closing ++
      (settleBody inspection.unsettled).2.map (⟨.deadCode, ·⟩)) := by
  have statements := Stmt.list_remarks_check inspection.frame inspection.scope.body
  have told : inspection.result.remarks =
      (checkStmts inspection.frame inspection.scope.body).remarks ++
        CodeScope.closing ⟨inspection.scope.info, inspection.unsettled⟩ ++
          (settleBody inspection.unsettled).2.map (⟨.deadCode, ·⟩) := by
    simp only [result, checkBody, remarks_bind, remarks_pure, Checked.value_bind,
      value_close_scope, remarks_declare_labels, remarks_declare_parameters, remarks_close,
      remarks_dead_code, List.nil_append, List.append_nil]
    rfl
  rw [told]
  exact (List.perm_append_comm.trans (.append_left _ statements)).append_right _

def ofFunction (outlook : Outlook) (decl : FunctionDecl) : Inspection :=
  ⟨outlook, .function decl.name decl.returns, decl.parameters, decl.ownScope⟩

def ofHandler (outlook : Outlook) (decl : HandlerDecl) : Inspection :=
  ⟨outlook, .handler decl.name, decl.parameters, decl.ownScope⟩

theorem remarks_of_function (outlook : Outlook) (decl : FunctionDecl) :
    (checkFunction outlook decl).remarks = (ofFunction outlook decl).result.remarks := by
  have rest (complete : Bool) : (reportAt decl.span
      (if complete then none else some (.missingReturn decl.name))).remarks = [] :=
    remarks_report_at (by grind [Problem.isRemark])
  simp only [checkFunction, remarks_bind, remarks_pure, rest, List.append_nil]
  rfl

theorem remarks_of_handler (outlook : Outlook) (decl : HandlerDecl) :
    (checkHandler outlook decl).remarks = (ofHandler outlook decl).result.remarks := by
  have first : (reportAt decl.span (handlerProblem? outlook.view.library decl)).remarks = [] :=
    remarks_report_at (by grind [handlerProblem?, Problem.isRemark])
  simp only [checkHandler, remarks_bind, remarks_pure, first, List.nil_append, List.append_nil]
  rfl

end Inspection

namespace HandlerDecl

/-- The handlers that are the first of their name, apart from those whose name was seen before. -/
def firsts (seen : List String) : List HandlerDecl → List HandlerDecl
  | [] => []
  | decl :: rest =>
    if seen.contains decl.name then firsts seen rest else decl :: firsts (decl.name :: seen) rest

variable {seen : List String} {decl : HandlerDecl}

theorem firsts_seen (known : seen.contains decl.name = true) (rest : List HandlerDecl) :
    firsts seen (decl :: rest) = firsts seen rest := if_pos known

theorem firsts_fresh (fresh : ¬ seen.contains decl.name = true) (rest : List HandlerDecl) :
    firsts seen (decl :: rest) = decl :: firsts (decl.name :: seen) rest := if_neg fresh

theorem firsts_sublist {seen : List String} {list : List HandlerDecl} :
    (firsts seen list).Sublist list := by
  induction list generalizing seen with
  | nil => exact .slnil
  | cons decl rest induction =>
      unfold firsts
      split
      · exact .cons _ induction
      · exact .cons_cons _ induction

end HandlerDecl

/-- The bodies of handlers that are looked into: a second handler of one event is not. -/
def StateDecl.examined (decl : StateDecl) : List CodeScope :=
  (HandlerDecl.firsts [] decl.handlers).map HandlerDecl.ownScope

/-- The bodies of a script that are looked into. -/
def Script.examined (script : Script) : List CodeScope :=
  script.functions.map FunctionDecl.ownScope ++ script.allStates.flatMap StateDecl.examined

@[simp] theorem Script.examined_concluded (script : Script) (reports : List Diagnostic) :
    (script.concluded reports).examined = script.examined := rfl

section

variable (outlook : Outlook)

theorem check_members_firsts (state : String) (seen : List String) (members : List StateMember) :
    HandlerDecl.firsts seen
        ((checkMembers outlook state seen members).value.filterMap StateMember.handler?) =
      (HandlerDecl.firsts seen (members.filterMap StateMember.handler?)).map fun decl =>
        (checkHandler outlook decl).value := by
  induction members generalizing seen with
  | nil => rfl
  | cons member members induction =>
      cases member with
      | broken span => exact induction seen
      | handler decl =>
          have read (decl : HandlerDecl) (members : List StateMember) :
              (.handler decl :: members).filterMap StateMember.handler? =
                decl :: members.filterMap StateMember.handler? := rfl
          unfold checkMembers
          split
          · rename_i known
            have same : seen.contains ({ decl with faulty := true } : HandlerDecl).name := known
            simp only [Checked.value_bind, Checked.value_pure, read]
            rw [HandlerDecl.firsts_seen same, HandlerDecl.firsts_seen known, induction]
          · rename_i fresh
            have same : ¬ seen.contains (checkHandler outlook decl).value.name := fresh
            simp only [Checked.value_bind, Checked.value_pure, read]
            rw [HandlerDecl.firsts_fresh same, HandlerDecl.firsts_fresh fresh, List.map_cons,
              ← induction]
            rfl

theorem remarks_check_members (state : String) (seen : List String) (members : List StateMember) :
    (checkMembers outlook state seen members).remarks =
      (HandlerDecl.firsts seen (members.filterMap StateMember.handler?)).flatMap fun decl =>
        (Inspection.ofHandler outlook decl).result.remarks := by
  induction members generalizing seen with
  | nil => rfl
  | cons member members induction =>
      cases member with
      | broken span =>
          simp only [checkMembers, remarks_bind, remarks_pure, List.append_nil]
          exact induction seen
      | handler decl =>
          have read : (.handler decl :: members).filterMap StateMember.handler? =
              decl :: members.filterMap StateMember.handler? := rfl
          unfold checkMembers
          rw [read]
          split
          · rename_i known
            have told : (report decl.span (.repeatedHandler decl.name state)).remarks = [] :=
              remarks_report rfl
            rw [HandlerDecl.firsts_seen known, ← induction]
            simp [told]
          · rename_i fresh
            rw [HandlerDecl.firsts_fresh fresh, List.flatMap_cons, ← induction]
            simp only [remarks_bind, remarks_pure, List.append_nil,
              Inspection.remarks_of_handler]
            rfl

theorem check_state_examined (decl : StateDecl) :
    (checkState outlook decl).value.examined =
      (HandlerDecl.firsts [] decl.handlers).map fun handler =>
        (checkHandler outlook handler).value.ownScope := by
  unfold checkState
  split
  · rename_i none
    simp [StateDecl.examined, StateDecl.handlers, List.isEmpty_iff.mp none, HandlerDecl.firsts]
  · have firsts := check_members_firsts outlook decl.name [] decl.members
    simp only [Checked.value_bind, Checked.value_pure, StateDecl.examined]
    exact (congrArg (List.map _) firsts).trans List.map_map

/-- The bodies of a state that are looked into, as they were read. -/
def StateDecl.inspections (outlook : Outlook) (decl : StateDecl) : List Inspection :=
  (HandlerDecl.firsts [] decl.handlers).map (Inspection.ofHandler outlook)

theorem remarks_check_state (decl : StateDecl) :
    (checkState outlook decl).remarks =
      (decl.inspections outlook).flatMap fun inspection => inspection.result.remarks := by
  rw [StateDecl.inspections, List.flatMap_map]
  unfold checkState
  split
  · rename_i none
    simp only [StateDecl.handlers, List.isEmpty_iff.mp none]
    rfl
  · simp only [remarks_bind, remarks_pure, List.append_nil]
    exact remarks_check_members outlook decl.name [] decl.members

theorem remarks_check_default (span : Span) (initial : Option StateDecl) :
    (checkDefaultState outlook span initial).remarks =
      (initial.toList.flatMap (StateDecl.inspections outlook)).flatMap fun inspection =>
        inspection.result.remarks := by
  cases initial with
  | none => rfl
  | some decl => simp [checkDefaultState, remarks_check_state]

theorem remarks_check_each {α : Type} {check : α → Checked α} {inspected : α → List Inspection}
    (each : ∀ value, (check value).remarks =
      (inspected value).flatMap fun inspection => inspection.result.remarks) (list : List α) :
    (checkEach check list).remarks =
      (list.flatMap inspected).flatMap fun inspection => inspection.result.remarks := by
  induction list with
  | nil => rfl
  | cons value list induction => simp [checkEach, each, induction]

end

theorem StateDecl.bodies_eq (decl : StateDecl) :
    decl.bodies = decl.handlers.map HandlerDecl.ownScope := by
  rw [bodies, handlers, ← List.filterMap_eq_map, List.filterMap_filterMap]
  refine List.filterMap_congr fun member _ => ?_
  cases member <;> rfl

theorem StateDecl.bodies_routines (decl : StateDecl) :
    decl.bodies = decl.routines.map Routine.scope := by
  rw [decl.bodies_eq, routines, List.map_map]
  rfl

theorem Script.bodies_eq (script : Script) : script.bodies = script.routines.map Routine.scope := by
  rw [bodies, routines, List.map_append, List.map_map, List.map_flatMap]
  exact congrArg (_ ++ ·) (List.flatMap_congr fun state _ => state.bodies_routines)

/-- The bodies that are looked into are among all, in the same order. -/
theorem Script.examined_sublist (script : Script) : script.examined.Sublist script.bodies := by
  refine .append (.refl _) (.flatMap_right _ fun state _ => ?_)
  rw [state.bodies_eq]
  exact HandlerDecl.firsts_sublist.map _

namespace Script

variable (library : Library) (script : Script)

/-- The bodies of a script that are looked into, as they were read. -/
def inspections : List Inspection :=
  (script.listedFunctions library).1.map (Inspection.ofFunction (script.prospect library)) ++
    script.listedStates.1.flatMap (StateDecl.inspections (script.prospect library))

theorem examined_inspections : (checkDeclarations library script).value.examined =
    (script.inspections library).map Inspection.body := by
  rw [examined, script.check_declarations_functions, script.check_declarations_states,
    List.map_map, List.flatMap_map, inspections, List.map_append, List.map_map, List.map_flatMap]
  refine congrArg (_ ++ ·) (List.flatMap_congr fun decl _ => ?_)
  rw [check_state_examined, StateDecl.inspections, List.map_map]
  rfl

/-- What is remarked about a script is remarked on the bodies that are looked into. -/
theorem remarks_check_declarations : (checkDeclarations library script).remarks =
    (script.inspections library).flatMap fun inspection => inspection.result.remarks := by
  have function (decl : FunctionDecl) : (checkFunction (script.prospect library) decl).remarks =
      [Inspection.ofFunction (script.prospect library) decl].flatMap fun inspection =>
        inspection.result.remarks := by
    rw [Inspection.remarks_of_function, List.flatMap_singleton]
  have functions := remarks_check_each function (script.listedFunctions library).1
  have initial := remarks_check_default (script.prospect library) script.span
    (declareStates [] script.defaultState.toList).value.1.head?
  have states := remarks_check_each (remarks_check_state (script.prospect library))
    (declareStates (declareStates [] script.defaultState.toList).value.2 script.states).value.1
  rw [declare_first_state] at initial
  rw [← List.map_eq_flatMap] at functions
  rw [inspections, listedStates, List.flatMap_append, List.flatMap_append, List.flatMap_append,
    ← functions, ← initial, ← states]
  simp only [checkDeclarations, remarks_bind, remarks_pure, remarks_declare_functions,
    remarks_declare_states, remarks_check_globals, List.nil_append, List.append_nil]
  rfl

variable {library script}

/-- Listing the states leaves their bodies as they were read. -/
theorem listed_bodies {decl : StateDecl} (listed : decl ∈ script.listedStates.1) :
    decl.bodies ⊆ script.bodies := by
  have read : decl.routines ∈ script.allStates.map StateDecl.routines :=
    script.listed_states_keep.2 ▸ List.mem_map_of_mem listed
  obtain ⟨state, own, same⟩ := List.mem_map.mp read
  intro body member
  rw [decl.bodies_routines, ← same, ← state.bodies_routines] at member
  exact List.mem_append_right _ (List.mem_flatMap.mpr ⟨state, own, member⟩)

/-- The bodies that are looked into are bodies of the script, and see what is declared in it. -/
theorem inspections_read {inspection : Inspection}
    (member : inspection ∈ script.inspections library) :
    inspection.outlook = script.prospect library ∧ inspection.scope ∈ script.bodies := by
  rcases List.mem_append.mp member with member | member
  · obtain ⟨decl, listed, rfl⟩ := List.mem_map.mp member
    have read : decl.routine ∈ script.functions.map FunctionDecl.routine :=
      (script.listed_functions_keep library).2 ▸ List.mem_map_of_mem listed
    rw [script.bodies_eq]
    exact ⟨rfl, List.mem_map_of_mem (List.mem_append_left _ read)⟩
  · obtain ⟨decl, listed, member⟩ := List.mem_flatMap.mp member
    obtain ⟨handler, first, rfl⟩ := List.mem_map.mp member
    refine ⟨rfl, listed_bodies listed ?_⟩
    rw [decl.bodies_eq]
    exact List.mem_map_of_mem (HandlerDecl.firsts_sublist.subset first)

end Script

def Problem.unused? : Problem → Option String
  | .unusedVariable name => some name
  | _ => none

/-- The variable that is reported as unused, with its place. -/
def Diagnostic.unused? (report : Diagnostic) : Option (String × Span) :=
  report.problem.unused?.map (·, report.span)

/-- The variables that are reported as unused. -/
def Checked.unused {α : Type} (checked : Checked α) : List (String × Span) :=
  checked.reports.filterMap Diagnostic.unused?

theorem Checked.unused_eq {α : Type} (checked : Checked α) :
    checked.unused = checked.remarks.filterMap Diagnostic.unused? := by
  refine checked.filter_map_remarks fun report other => ?_
  obtain ⟨problem, span⟩ := report
  cases problem with
  | unusedVariable name => cases other
  | _ => rfl

@[simp] theorem CodeScope.unused_closing (scope : CodeScope) :
    scope.closing.filterMap Diagnostic.unused? = unusedVariables scope.body := by
  simp [closing, closeScope, List.filterMap_map, Diagnostic.unused?, Problem.unused?,
    Function.comp_def]

namespace Stmt

theorem declared_marked (reach : Reachability) (body : List Stmt) :
    (listMarked reach body).filterMap declared? = body.filterMap declared? := by
  rw [list_marked_eq, List.filterMap_map]
  refine List.filterMap_congr fun stmt _ => ?_
  cases stmt <;> rfl

theorem unused_variables_marked (reach : Reachability) (body : List Stmt) :
    unusedVariables (listMarked reach body) = unusedVariables body := by
  unfold unusedVariables
  simp only [declared_marked, list_uses_marked]

end Stmt

/-- The variables declared in a scope and the scopes in it that nothing in their scope uses. -/
def CodeScope.unusedInside (scope : CodeScope) : List (String × Span) :=
  scope.scopes.flatMap (unusedVariables ·.body)

theorem CodeScope.unused_inside_settled (info : ScopeInfo) (body : List Stmt) :
    CodeScope.unusedInside ⟨info, (settleBody body).1⟩ = CodeScope.unusedInside ⟨info, body⟩ := by
  refine Stmt.settled_eq (fun body => unusedInside ⟨info, body⟩) (fun body => ?_) body
  simp only [unusedInside, scopes, List.flatMap_cons, Stmt.unused_variables_marked,
    Stmt.list_scopes_marked, List.flatMap_map, CodeScope.marked]

theorem Inspection.unused_result (inspection : Inspection) :
    (inspection.result.remarks.filterMap Diagnostic.unused?).Perm
      inspection.body.unusedInside := by
  have dead (regions : List Span) :
      (regions.map fun region => (⟨.deadCode, region⟩ : Diagnostic)).filterMap
        Diagnostic.unused? = [] := by
    rw [List.filterMap_map]
    exact List.filterMap_eq_nil_iff.mpr fun _ _ => rfl
  have told := inspection.remarks_result.filterMap Diagnostic.unused?
  rw [List.filterMap_append, dead, List.append_nil, List.filterMap_flatMap] at told
  simp only [CodeScope.unused_closing] at told
  exact told.trans (.of_eq (CodeScope.unused_inside_settled _ inspection.unsettled).symm)

/-- What is reported as unused is unused in a body that is looked into. -/
theorem unused_check_declarations (library : Library) (script : Script) :
    (checkDeclarations library script).unused.Perm
      ((checkDeclarations library script).value.examined.flatMap CodeScope.unusedInside) := by
  rw [Checked.unused_eq, script.remarks_check_declarations, script.examined_inspections,
    List.filterMap_flatMap, List.flatMap_map]
  exact .flatMap_left _ fun inspection _ => inspection.unused_result

end Lsl
