import Lsl.Checking.Script
import Lsl.Proofs.Syntax.CodeScope
import Lsl.Proofs.Syntax.Parts

/-!
What checking reports is about the meaning of a script. That something is wrong with the text of a
script is said where the text is read and nowhere else.
-/

set_option autoImplicit false

namespace Lsl

/-- Problems that only a script has whose text is read without an error. -/
def Problem.isMeant (problem : Problem) : Bool :=
  problem.category == .semantic || problem.category == .advisory

/-- All that is reported is about the meaning. -/
def Checked.Meant {α : Type} (checked : Checked α) : Prop :=
  ∀ report ∈ checked.reports, report.problem.isMeant = true

section

variable {α β : Type}

@[simp] theorem meant_pure (value : α) : (pure value : Checked α).Meant := by
  intro report member
  cases member

@[simp] theorem meant_bind (first : Checked α) (next : α → Checked β) :
    (first >>= next).Meant ↔ first.Meant ∧ (next first.value).Meant := by
  simp only [Checked.Meant, Checked.reports_bind, List.forall_mem_append]

theorem meant_single {value : α} {problem : Problem} {span : Span}
    (meant : problem.isMeant = true) : (⟨value, [⟨problem, span⟩]⟩ : Checked α).Meant := by
  simpa [Checked.Meant] using meant

theorem meant_report {span : Span} {problem : Problem} (meant : problem.isMeant = true) :
    (report span problem).Meant :=
  meant_single meant

theorem meant_blame (expr : Expr) {problem : Problem} (meant : problem.isMeant = true) :
    (expr.blame problem).Meant :=
  meant_single meant

theorem meant_blame_stmt (info : StmtInfo) {problem : Problem} (meant : problem.isMeant = true) :
    (info.blame problem).Meant :=
  meant_single meant

theorem meant_report_at {span : Span} {problem? : Option Problem}
    (meant : ∀ problem ∈ problem?, problem.isMeant = true) : (reportAt span problem?).Meant := by
  cases problem? with
  | none => exact meant_pure false
  | some problem => exact meant_single (meant problem rfl)

theorem meant_option {check : α → Checked α} (each : ∀ value, (check value).Meant)
    (value : Option α) : (checkOption check value).Meant := by
  cases value <;> simp [checkOption, each]

theorem meant_each {check : α → Checked α} (each : ∀ value, (check value).Meant)
    (list : List α) : (checkEach check list).Meant := by
  induction list with
  | nil => exact meant_pure []
  | cons value list induction => simp [checkEach, each, induction]

end

section Expression

theorem meant_ite_blame (fine : Prop) [Decidable fine] (expr : Expr) {problem : Problem}
    (meant : problem.isMeant = true) :
    (if fine then pure expr else expr.blame problem : Checked Expr).Meant := by
  split
  · exact meant_pure expr
  · exact meant_blame expr meant

theorem meant_demand (expr : Expr) (admits : ValueType → Bool) {problem : ValueType → Problem}
    (meant : ∀ type, (problem type).isMeant = true) : (expr.demand admits problem).Meant := by
  unfold Expr.demand
  split
  · exact meant_ite_blame _ expr (meant _)
  · exact meant_pure expr

@[simp] theorem meant_demand_float (expr : Expr) : (demandFloat expr).Meant :=
  meant_demand expr _ fun _ => rfl

@[simp] theorem meant_demand_element (expr : Expr) : (demandElement expr).Meant :=
  meant_demand expr _ fun _ => rfl

@[simp] theorem meant_target (expr : Expr) : (checkTarget expr).Meant := by
  match expr with
  | .reference info name binding =>
      cases binding with
      | constant => exact (meant_bind _ _).mpr ⟨meant_blame _ rfl, meant_pure _⟩
      | _ => exact meant_pure _
  | .component info part target =>
      exact (meant_bind _ _).mpr ⟨meant_target target, meant_pure _⟩
  | .integer _ _ | .hex _ _ | .float _ _ | .string _ _ | .vector _ _ _ _ | .rotation _ _ _ _ _
  | .list _ _ _ | .call _ _ _ _ _ | .binary _ _ _ _ | .prefixed _ _ _ | .postfixed _ _ _
  | .cast _ _ _ | .grouped _ _ => exact meant_pure _

variable (view : View) (info : ExprInfo) (name : String)

@[simp] theorem meant_reference : (checkReference view info name).Meant := by
  unfold checkReference
  split
  · exact meant_pure _
  · rename_i problem refused
    refine meant_blame _ ?_
    unfold View.resolve at refused
    grind [Problem.isMeant, Problem.category, Problem.severity]

section Call

variable (inner : Span) (arguments : List Expr)

@[simp] theorem meant_fit_arguments (place : Nat) (types : List ValueType) :
    (fitArguments name place arguments types).Meant := by
  induction arguments generalizing place types with
  | nil => cases types <;> exact meant_pure _
  | cons argument arguments induction =>
      cases types with
      | nil => exact meant_pure _
      | cons expected types =>
          refine (meant_bind _ _).mpr ⟨meant_demand _ _ fun _ => rfl, ?_⟩
          exact (meant_bind _ _).mpr ⟨induction _ _, meant_pure _⟩

theorem meant_arguments (target : CallTarget) (parameters : List ValueType) :
    (checkArguments info name inner arguments target parameters).Meant := by
  unfold checkArguments
  split
  · exact meant_blame _ rfl
  · simp

theorem meant_library_call (types : List ValueType) :
    (checkLibraryCall view info name inner arguments types).Meant := by
  unfold checkLibraryCall
  split
  · unfold checkUnresolvedCall
    dsimp only
    split
    · split
      · exact meant_blame _ rfl
      · exact meant_arguments _ name inner arguments _ _
    · exact meant_blame _ rfl
  · split
    · exact (meant_bind _ _).mpr ⟨meant_report rfl, meant_pure _⟩
    · exact meant_pure _

@[simp] theorem meant_call : (checkCall view info name inner arguments).Meant := by
  unfold checkCall
  split
  · exact meant_arguments _ name inner arguments _ _
  · dsimp only
    split
    · exact meant_blame _ rfl
    · split
      · exact meant_pure _
      · exact meant_library_call view info name inner arguments _

end Call

@[simp] theorem meant_operation (operator : BinaryOperator) (left right : Expr) :
    (typeOperation info operator left right).Meant := by
  unfold typeOperation
  split
  · refine meant_ite_blame _ _ ?_
    unfold operandProblem
    split <;> rfl
  · exact meant_pure _

@[simp] theorem meant_binary (operator : BinaryOperator) (left right : Expr) :
    (checkBinary info operator left right).Meant := by
  unfold checkBinary
  split
  · refine (meant_bind _ _).mpr ⟨meant_target left, ?_⟩
    dsimp only
    split <;> simp
  · simp

@[simp] theorem meant_prefixed (operator : PrefixOperator) (operand : Expr) :
    (checkPrefixed info operator operand).Meant := by
  have typed (operand : Expr) (type : ValueType) :
      (typePrefixed info operator operand type).Meant := meant_ite_blame _ _ rfl
  unfold checkPrefixed
  split
  · exact meant_pure _
  · split
    · refine (meant_bind _ _).mpr ⟨meant_target operand, ?_⟩
      dsimp only
      split
      · exact typed _ _
      · exact meant_ite_blame _ _ rfl
    · exact typed _ _

@[simp] theorem meant_postfixed (operator : PostfixOperator) (operand : Expr) :
    (checkPostfixed info operator operand).Meant := by
  refine (meant_bind _ _).mpr ⟨meant_target operand, ?_⟩
  dsimp only
  split
  · split
    · exact meant_pure _
    · exact meant_blame _ rfl
  · exact meant_pure _

@[simp] theorem meant_cast (target : ValueType) (operand : Expr) :
    (checkCast info target operand).Meant := by
  unfold checkCast
  split
  · exact meant_pure _
  · exact meant_ite_blame _ _ rfl

@[simp] theorem meant_component (part : Component) (target : Expr) :
    (checkComponent info part target).Meant := by
  unfold checkComponent
  split
  · exact meant_pure _
  · split
    · exact meant_pure _
    · exact meant_blame _ rfl

variable {view}

theorem meant_exprs {demand : Expr → Checked Expr} {exprs : List Expr}
    (demanded : ∀ expr, (demand expr).Meant) (each : ∀ expr ∈ exprs, (checkExpr view expr).Meant) :
    (checkExprs view demand exprs).Meant := by
  induction exprs with
  | nil => exact meant_pure []
  | cons expr rest induction =>
      have others := induction fun expr member => each expr (List.mem_cons_of_mem _ member)
      simp [checkExprs, demanded, others, each expr List.mem_cons_self]

@[simp] theorem meant_expr (expr : Expr) : (checkExpr view expr).Meant := by
  induction expr using Expr.parts_induction with
  | step expr parts =>
      cases expr with
      | list info inner elements =>
          have members : (checkExprs view demandElement elements).Meant :=
            meant_exprs meant_demand_element parts
          simp [checkExpr, members]
      | call info name inner arguments target =>
          have members : (checkExprs view pure arguments).Meant := meant_exprs meant_pure parts
          simp [checkExpr, members]
      | _ => simp_all [checkExpr, Expr.parts]

@[simp] theorem meant_condition (condition : Expr) : (checkCondition view condition).Meant :=
  (meant_bind _ _).mpr ⟨meant_expr condition, meant_demand _ _ fun _ => rfl⟩

@[simp] theorem meant_initializer (type : ValueType) (initializer : Expr) :
    (checkInitializer view type initializer).Meant :=
  (meant_bind _ _).mpr ⟨meant_expr initializer, meant_demand _ _ fun _ => rfl⟩

@[simp] theorem meant_expr_list (list : ExprList) : (checkExprList view list).Meant :=
  (meant_bind _ _).mpr ⟨meant_exprs meant_pure fun _ _ => meant_expr _, meant_pure _⟩

end Expression

section Statement

@[simp] theorem meant_close (body : List Stmt) : (closeScope body).Meant := by
  intro report member
  obtain ⟨⟨name, span⟩, _, rfl⟩ := List.mem_map.mp member
  rfl

variable (frame : Frame) (info : StmtInfo)

@[simp] theorem meant_declaration (decl : Variable) : (checkDeclaration frame info decl).Meant := by
  refine (meant_bind _ _).mpr ⟨meant_option (meant_initializer _) _, ?_⟩
  dsimp only
  split
  · rename_i problem refused
    refine (meant_bind _ _).mpr ⟨meant_blame_stmt info ?_, meant_pure _⟩
    unfold declarationProblem? at refused
    grind [Problem.isMeant, Problem.category, Problem.severity]
  · exact meant_pure _

@[simp] theorem meant_return (value : Option Expr) : (checkReturn frame info value).Meant := by
  refine (meant_bind _ _).mpr ⟨meant_option meant_expr _, ?_⟩
  split
  · exact (meant_bind _ _).mpr ⟨meant_report rfl, meant_pure _⟩
  · exact (meant_bind _ _).mpr ⟨meant_blame_stmt info rfl, meant_pure _⟩
  · exact (meant_bind _ _).mpr ⟨meant_demand _ _ fun _ => rfl, meant_pure _⟩
  · split
    · exact meant_pure _
    · exact (meant_bind _ _).mpr ⟨meant_blame_stmt info rfl, meant_pure _⟩
  · exact meant_pure _

@[simp] theorem meant_jump (name : String) : (checkJump frame info name).Meant := by
  unfold checkJump
  split
  · exact (meant_bind _ _).mpr ⟨meant_blame_stmt info rfl, meant_pure _⟩
  · dsimp only
    split
    · exact meant_pure _
    · exact (meant_bind _ _).mpr ⟨meant_blame_stmt info rfl, meant_pure _⟩

@[simp] theorem meant_state_change (name : String) : (checkStateChange frame info name).Meant := by
  unfold checkStateChange
  split
  · exact (meant_bind _ _).mpr ⟨meant_blame_stmt info rfl, meant_pure _⟩
  · split
    · exact (meant_bind _ _).mpr ⟨meant_report rfl, meant_pure _⟩
    · exact meant_pure _

theorem meant_alternatives {rest : Alternatives}
    (parts : ∀ part ∈ rest.parts, ∀ frame, (checkStmts frame part.body).Meant) :
    (checkAlternatives frame rest).Meant := by
  match rest with
  | .done => exact meant_pure _
  | .elseIf span condition scope body rest =>
      have own := parts ⟨scope, body⟩ List.mem_cons_self
      have others := meant_alternatives fun part member =>
        parts part (List.mem_cons_of_mem _ member)
      simp [checkAlternatives, own, others]
  | .otherwise span scope body =>
      have own := parts ⟨scope, body⟩ List.mem_cons_self
      simp [checkAlternatives, own]

theorem meant_stmt {stmt : Stmt}
    (parts : ∀ part ∈ stmt.parts, ∀ frame, (checkStmts frame part.body).Meant) :
    (checkStmt frame stmt).Meant := by
  have lists := meant_option (@meant_expr_list frame.view)
  have conditions := meant_option (@meant_condition frame.view)
  cases stmt with
  | branch info first condition scope body rest =>
      have own := parts ⟨scope, body⟩ List.mem_cons_self
      have others := meant_alternatives frame fun part member =>
        parts part (List.mem_cons_of_mem _ member)
      simp [checkStmt, own, others]
  | _ => simp_all [checkStmt, Stmt.parts]

@[simp] theorem meant_stmts (body : List Stmt) : (checkStmts frame body).Meant := by
  induction body using Stmt.list_induction generalizing frame with
  | nil => exact meant_pure []
  | cons stmt rest inner outer =>
      have here := meant_stmt frame fun part member frame => inner part member frame
      simp [checkStmts, here, outer]

end Statement

section Script

@[simp] theorem meant_labels (declared labels : List LabelPlace) :
    (declareLabels declared labels).Meant := by
  induction labels generalizing declared with
  | nil => exact meant_pure _
  | cons label rest induction =>
      unfold declareLabels
      split
      · exact (meant_bind _ _).mpr ⟨meant_report rfl, induction _⟩
      · exact induction _

@[simp] theorem meant_parameters (library : Library) (declared : List Visible)
    (members : List ParameterDecl) : (declareParameters library declared members).Meant := by
  induction members generalizing declared with
  | nil => exact meant_pure _
  | cons decl members induction =>
      simp only [declareParameters, meant_bind, meant_pure, induction, and_true]
      exact meant_report_at (by grind [Problem.isMeant, Problem.category, Problem.severity])

theorem meant_functions (library : Library) (declared : List FunctionHeader)
    (list : List FunctionDecl) : (declareFunctions library declared list).Meant := by
  induction list generalizing declared with
  | nil => exact meant_pure _
  | cons decl list induction =>
      simp only [declareFunctions, meant_bind, meant_pure, induction, and_true]
      exact meant_report_at (by grind [Problem.isMeant, Problem.category, Problem.severity])

theorem meant_states (declared : List (String × Nat)) (list : List StateDecl) :
    (declareStates declared list).Meant := by
  induction list generalizing declared with
  | nil => exact meant_pure _
  | cons decl list induction =>
      simp only [declareStates, declareState, meant_bind, meant_pure, induction, and_true]
      exact meant_report_at (by grind [Problem.isMeant, Problem.category, Problem.severity])

theorem meant_globals (view : View) (list : List GlobalDecl) : (checkGlobals view list).Meant := by
  induction list generalizing view with
  | nil => exact meant_pure _
  | cons global list induction =>
      have initializer (value : Expr) :
          (checkGlobalInitializer view global.decl.type global.decl.name value).Meant :=
        (meant_bind _ _).mpr ⟨meant_initializer _ _, meant_ite_blame _ _ rfl⟩
      simp only [checkGlobals, meant_bind, meant_pure, induction, and_true]
      refine ⟨meant_option initializer _, meant_report_at ?_⟩
      grind [Problem.isMeant, Problem.category, Problem.severity]

variable (outlook : Outlook)

@[simp] theorem meant_body (owner : Owner) (parameters : ParameterList) (scope : ScopeInfo)
    (body : List Stmt) : (checkBody outlook owner parameters scope body).Meant := by
  have dead (regions : List Span) : (forM regions (report · .deadCode)).Meant := by
    induction regions with
    | nil => exact meant_pure _
    | cons region regions induction =>
        rw [List.forM_cons]
        exact (meant_bind _ _).mpr ⟨meant_report rfl, induction⟩
  simp [checkBody, dead]

theorem meant_function (decl : FunctionDecl) : (checkFunction outlook decl).Meant := by
  simp only [checkFunction, meant_bind, meant_body, meant_pure, and_true, true_and]
  exact meant_report_at (by grind [Problem.isMeant, Problem.category, Problem.severity])

@[simp] theorem meant_handler (decl : HandlerDecl) : (checkHandler outlook decl).Meant := by
  simp only [checkHandler, meant_bind, meant_body, meant_pure, and_true]
  refine meant_report_at fun problem found => ?_
  unfold handlerProblem? at found
  grind [Problem.isMeant, Problem.category, Problem.severity]

theorem meant_members (state : String) (seen : List String) (members : List StateMember) :
    (checkMembers outlook state seen members).Meant := by
  induction members generalizing seen with
  | nil => exact meant_pure _
  | cons member members induction =>
      cases member with
      | broken span => simp [checkMembers, induction]
      | handler decl =>
          unfold checkMembers
          split
          · refine (meant_bind _ _).mpr ⟨meant_report rfl, ?_⟩
            simp [induction]
          · simp [induction]

theorem meant_state (decl : StateDecl) : (checkState outlook decl).Meant := by
  unfold checkState
  split
  · exact (meant_bind _ _).mpr ⟨meant_report rfl, meant_pure _⟩
  · exact (meant_bind _ _).mpr ⟨meant_members outlook _ _ _, meant_pure _⟩

theorem meant_default (span : Span) (initial : Option StateDecl) :
    (checkDefaultState outlook span initial).Meant := by
  cases initial with
  | none => exact (meant_bind _ _).mpr ⟨meant_report rfl, meant_pure _⟩
  | some decl => exact (meant_bind _ _).mpr ⟨meant_state outlook decl, meant_pure _⟩

/-- Checking the declarations of a script reports nothing about its text. -/
theorem meant_declarations (library : Library) (script : Script) :
    (checkDeclarations library script).Meant := by
  simp only [checkDeclarations, meant_bind, meant_pure, meant_functions, meant_states,
    meant_globals, meant_default, and_true, true_and]
  exact ⟨meant_each (meant_function _) _, meant_each (meant_state _) _⟩

end Script

end Lsl
