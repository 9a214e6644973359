import Lsl.Proofs.Checking.Tracking

/-!
Checking statements whose places have new numbers. Local variables, labels and scopes keep apart,
so that what can be referred to stays the same; whether a variable is used stays the same as well if
what is declared around the body keeps apart from it.
-/

set_option autoImplicit false

namespace Lsl

/-- Local variables, labels and scopes that are apart stay apart. -/
structure Relocation.Faithful (relocation : Relocation) : Prop where
  inner : Function.Injective relocation.inner
  scope : Function.Injective relocation.scope

/-- What is declared around a body gets its numbers from the same row. -/
def Relocation.Uniform (relocation : Relocation) : Prop := relocation.outer = relocation.inner

section Uses

variable {relocation : Relocation}

/-- The declarations that are used, once for each use. -/
def Use.targets (uses : List Use) : List Nat := uses.map (·.declaration)

theorem Use.targets_append (front back : List Use) :
    targets (front ++ back) = targets front ++ targets back := List.map_append

theorem Use.is_used_eq (uses : List Use) (start : Nat) :
    isUsed uses start = decide (start ∈ targets uses) := by
  rw [Bool.eq_iff_iff]
  simp [isUsed, targets]

theorem Use.targets_of_bound (span : Span) (declaration : Option Nat) :
    targets (ofBound span declaration) = declaration.toList := by
  cases declaration <;> rfl

theorem Binding.declaration_relocate (uniform : relocation.Uniform) (binding : Binding) :
    (relocation.linking.binding binding).declaration? =
      binding.declaration?.map relocation.inner := by
  unfold Relocation.Uniform at uniform
  cases binding <;> simp [Relocation.linking, Relocation.binding, Binding.declaration?, uniform]

theorem CallTarget.declaration_relocate (uniform : relocation.Uniform) (target : CallTarget) :
    (relocation.linking.call target).declaration? =
      target.declaration?.map relocation.inner := by
  unfold Relocation.Uniform at uniform
  cases target <;> simp [Relocation.linking, Relocation.call, CallTarget.declaration?, uniform]

mutual

theorem Expr.targets_recast (uniform : relocation.Uniform) (expr : Expr) :
    Use.targets (expr.recast relocation.linking).uses =
      (Use.targets expr.uses).map relocation.inner := by
  cases expr with
  | reference info name binding =>
      simp only [Expr.recast, Expr.uses, Use.targets_of_bound,
        Binding.declaration_relocate uniform, Option.toList_map]
  | call info name inner passed target =>
      simp only [Expr.recast, Expr.uses, Use.targets_append, List.map_append,
        Expr.list_targets_recast uniform, Use.targets_of_bound,
        CallTarget.declaration_relocate uniform, Option.toList_map]
  | list info inner elements =>
      simp only [Expr.recast, Expr.uses, Expr.list_targets_recast uniform]
  | _ =>
      simp only [Expr.recast, Expr.uses, Use.targets_append, List.map_append,
        Expr.targets_recast uniform]
      try rfl

theorem Expr.list_targets_recast (uniform : relocation.Uniform) (exprs : List Expr) :
    Use.targets (Expr.listUses (Expr.listRecast relocation.linking exprs)) =
      (Use.targets (Expr.listUses exprs)).map relocation.inner := by
  cases exprs with
  | nil => rfl
  | cons expr rest =>
      simp only [Expr.listRecast, Expr.listUses, Use.targets_append, List.map_append,
        Expr.targets_recast uniform, Expr.list_targets_recast uniform]

end

theorem Expr.option_targets_recast (uniform : relocation.Uniform) (value : Option Expr) :
    Use.targets (Expr.optionUses (value.map (Expr.recast relocation.linking))) =
      (Use.targets (Expr.optionUses value)).map relocation.inner := by
  cases value with
  | none => rfl
  | some value => exact value.targets_recast uniform

theorem ExprList.option_targets_recast (uniform : relocation.Uniform) (list : Option ExprList) :
    Use.targets (ExprList.optionUses (list.map (ExprList.recast relocation.bound))) =
      (Use.targets (ExprList.optionUses list)).map relocation.inner := by
  cases list with
  | none => rfl
  | some list =>
      have told := Expr.list_targets_recast uniform list.members
      rw [Expr.list_recast_eq] at told
      exact told

mutual

theorem Stmt.targets_recast (uniform : relocation.Uniform) (stmt : Stmt) :
    Use.targets (stmt.recast relocation.bound).uses =
      (Use.targets stmt.uses).map relocation.inner := by
  have around : relocation.outer = relocation.inner := uniform
  have linked : relocation.bound.linking = relocation.linking := rfl
  cases stmt with
  | jump info name target =>
      cases target <;> rfl
  | changeState info name target =>
      cases target with
      | none => rfl
      | some start => simp [Stmt.recast, Stmt.uses, Relocation.bound, around, Use.targets_of_bound]
  | _ =>
      simp only [Stmt.recast, Stmt.uses, Use.targets_append, List.map_append, linked,
        Variable.recast, Expr.targets_recast uniform, Expr.option_targets_recast uniform,
        ExprList.option_targets_recast uniform, Stmt.list_targets_recast uniform,
        Alternatives.targets_recast uniform]
      try rfl

theorem Stmt.list_targets_recast (uniform : relocation.Uniform) (body : List Stmt) :
    Use.targets (Stmt.listUses (Stmt.listRecast relocation.bound body)) =
      (Use.targets (Stmt.listUses body)).map relocation.inner := by
  cases body with
  | nil => rfl
  | cons stmt rest =>
      simp only [Stmt.listRecast, Stmt.listUses, Use.targets_append, List.map_append,
        Stmt.targets_recast uniform, Stmt.list_targets_recast uniform]

theorem Alternatives.targets_recast (uniform : relocation.Uniform) (rest : Alternatives) :
    Use.targets (rest.recast relocation.bound).uses =
      (Use.targets rest.uses).map relocation.inner := by
  have linked : relocation.bound.linking = relocation.linking := rfl
  cases rest with
  | done => rfl
  | elseIf span condition scope body rest =>
      simp only [Alternatives.recast, Alternatives.uses, Use.targets_append, List.map_append,
        linked, Expr.targets_recast uniform, Stmt.list_targets_recast uniform,
        Alternatives.targets_recast uniform]
  | otherwise span scope body => exact Stmt.list_targets_recast uniform body

end

end Uses

section

variable (relocation : Relocation)

def LabelPlace.relocate (label : LabelPlace) : LabelPlace :=
  ⟨label.name, label.span.recast relocation.inner, relocation.scope label.scope⟩

def Frame.relocate (frame : Frame) : Frame where
  view := frame.view.relocate relocation
  states := frame.states.map (Prod.map id relocation.outer)
  labels := frame.labels.map (LabelPlace.relocate relocation)
  owner := frame.owner
  scopes := frame.scopes.map relocation.scope

theorem LabelPlace.start_relocate (label : LabelPlace) :
    (label.relocate relocation).start = relocation.inner label.start := rfl

mutual

theorem Stmt.labels_recast (scope : Nat) (stmt : Stmt) :
    (stmt.recast relocation.unbound).labels (relocation.scope scope) =
      (stmt.labels scope).map (LabelPlace.relocate relocation) := by
  cases stmt with
  | block inner body => exact Stmt.list_labels_recast inner.id body
  | branch info first condition inner body rest =>
      simp only [Stmt.recast, Stmt.labels, List.map_append, ← Stmt.list_labels_recast,
        ← Alternatives.labels_recast]
      rfl
  | whileLoop info condition inner body => exact Stmt.list_labels_recast inner.id body
  | doLoop info inner body condition => exact Stmt.list_labels_recast inner.id body
  | forLoop info init condition afterthought inner body =>
      exact Stmt.list_labels_recast inner.id body
  | _ => rfl

theorem Stmt.list_labels_recast (scope : Nat) (body : List Stmt) :
    Stmt.listLabels (relocation.scope scope) (Stmt.listRecast relocation.unbound body) =
      (Stmt.listLabels scope body).map (LabelPlace.relocate relocation) := by
  cases body with
  | nil => rfl
  | cons stmt rest =>
      simp only [Stmt.listRecast, Stmt.listLabels, List.map_append, Stmt.labels_recast,
        Stmt.list_labels_recast]

theorem Alternatives.labels_recast (rest : Alternatives) :
    (rest.recast relocation.unbound).labels =
      rest.labels.map (LabelPlace.relocate relocation) := by
  cases rest with
  | done => rfl
  | elseIf span condition inner body rest =>
      simp only [Alternatives.recast, Alternatives.labels, List.map_append,
        ← Stmt.list_labels_recast, ← Alternatives.labels_recast]
      rfl
  | otherwise span inner body => exact Stmt.list_labels_recast inner.id body

end

end

namespace Frame

variable {relocation : Relocation} (frame : Frame)

theorem label_relocate (name : String) :
    (frame.relocate relocation).label? name =
      (frame.label? name).map (LabelPlace.relocate relocation) :=
  List.find?_map ..

theorem state_relocate (name : String) :
    (frame.relocate relocation).states.lookup name =
      (frame.states.lookup name).map relocation.outer := by
  simp only [relocate]
  induction frame.states with
  | nil => rfl
  | cons state rest induction =>
      obtain ⟨known, start⟩ := state
      simp only [List.map_cons, Prod.map_apply, id_eq, List.lookup_cons, induction]
      split <;> rfl

/-- What stands behind a checked statement sees the same, at the new places. -/
theorem behind_relocate (inside : frame.scopes ≠ []) (stmt : Stmt) :
    (frame.relocate relocation).behind (stmt.recast relocation.bound) =
      (frame.behind stmt).relocate relocation := by
  cases stmt with
  | declare info decl =>
      simp only [Stmt.recast, behind]
      change (if info.faulty then frame.relocate relocation else _) = _
      split
      · rfl
      · obtain ⟨scope, around, same⟩ := List.exists_cons_of_ne_nil inside
        simp only [relocate, same, List.map_cons, List.headD_cons]
        rfl
  | _ => rfl

theorem behind_scopes (stmt : Stmt) : (frame.behind stmt).scopes = frame.scopes := by
  cases stmt with
  | declare info decl =>
      simp only [behind]
      split <;> rfl
  | _ => rfl

end Frame

namespace Checked.Tracks

variable {apart : Prop} {relocation : Relocation}

theorem blame_stmt (place : Nat → Nat) (info : StmtInfo) (problem : Problem) :
    Tracks apart (StmtInfo.recast place) (info.blame problem)
      ((info.recast place).blame problem) :=
  ⟨rfl, fun _ => rfl⟩

theorem declaration_problem (view : View) (name : String) :
    declarationProblem? (view.relocate relocation) name = declarationProblem? view name := by
  simp only [declarationProblem?, View.relocate, List.any_map]
  rfl

theorem declaration (frame : Frame) (info : StmtInfo) (decl : Variable) :
    Tracks apart (Stmt.recast relocation.bound) (checkDeclaration frame info decl)
      (checkDeclaration (frame.relocate relocation) (info.recast relocation.inner)
        (decl.recast relocation.unbound)) := by
  unfold checkDeclaration
  refine (option (initializer frame.view decl.type) decl.initializer).bind fun value => ?_
  have same : declarationProblem? (frame.relocate relocation).view
      (decl.recast relocation.unbound).name = declarationProblem? frame.view decl.name :=
    declaration_problem frame.view decl.name
  dsimp only
  rw [same]
  split
  · exact (blame_stmt relocation.inner info _).bind fun _ => .pure rfl
  · exact .pure rfl

theorem give_back (frame : Frame) (info : StmtInfo) (value : Option Expr) :
    Tracks apart (Stmt.recast relocation.bound) (checkReturn frame info value)
      (checkReturn (frame.relocate relocation) (info.recast relocation.plain)
        (value.map (Expr.recast .none))) := by
  unfold checkReturn
  refine (option (expr frame.view) value).bind fun value => ?_
  simp only [Frame.relocate]
  cases frame.owner with
  | handler event =>
      cases value with
      | some value => exact report.bind fun _ => .pure rfl
      | none => exact .pure rfl
  | function name returns =>
      cases value with
      | some value =>
          have given : Tracks apart (Stmt.recast relocation.bound)
              (value.demand (·.convertsTo returns) (.returnMismatch returns ·) >>= fun value =>
                Pure.pure (.giveBack info (some value)))
              ((value.recast relocation.linking).demand (·.convertsTo returns)
                (.returnMismatch returns ·) >>= fun value =>
                Pure.pure (.giveBack (info.recast relocation.plain) (some value))) :=
            (demand value _ _).bind fun _ => .pure rfl
          cases returns with
          | void => exact (blame_stmt relocation.plain info _).bind fun _ => .pure rfl
          | _ => exact given
      | none =>
          cases returns with
          | void => exact .pure rfl
          | _ => exact (blame_stmt relocation.plain info _).bind fun _ => .pure rfl

theorem jump (faithful : relocation.Faithful) (frame : Frame) (info : StmtInfo) (name : String) :
    Tracks apart (Stmt.recast relocation.bound) (checkJump frame info name)
      (checkJump (frame.relocate relocation) (info.recast relocation.plain) name) := by
  unfold checkJump
  rw [Frame.label_relocate]
  cases frame.label? name with
  | none => exact (blame_stmt relocation.plain info _).bind fun _ => .pure rfl
  | some label =>
      have reach : (frame.scopes.map relocation.scope).contains (relocation.scope label.scope) =
          frame.scopes.contains label.scope := by
        rw [Bool.eq_iff_iff]
        simp [faithful.scope.eq_iff]
      simp only [Option.map_some, Frame.relocate, LabelPlace.relocate, reach]
      cases frame.scopes.contains label.scope with
      | true => exact .pure rfl
      | false => exact (blame_stmt relocation.plain info _).bind fun _ => .pure rfl

theorem state_change (frame : Frame) (info : StmtInfo) (name : String) :
    Tracks apart (Stmt.recast relocation.bound) (checkStateChange frame info name)
      (checkStateChange (frame.relocate relocation) (info.recast relocation.plain) name) := by
  unfold checkStateChange
  rw [Frame.state_relocate]
  cases frame.states.lookup name with
  | none => exact (blame_stmt relocation.plain info _).bind fun _ => .pure rfl
  | some start =>
      rw [show (frame.relocate relocation).owner = frame.owner from rfl]
      cases frame.owner with
      | function owner returns => exact report.bind fun _ => .pure rfl
      | handler event => exact .pure rfl

theorem label (faithful : relocation.Faithful) (frame : Frame) (info : StmtInfo) (name : String) :
    checkLabel (frame.relocate relocation) (info.recast relocation.inner) name =
      (checkLabel frame info name).recast relocation.bound := by
  have repeated : ((frame.relocate relocation).label? name).any
        (·.start ≠ (info.recast relocation.inner).span.start.offset) =
      (frame.label? name).any (·.start ≠ info.span.start.offset) := by
    rw [Frame.label_relocate]
    cases frame.label? name with
    | none => rfl
    | some label =>
        simp only [Option.map_some, Option.any_some, LabelPlace.start_relocate]
        change decide (relocation.inner label.start ≠ relocation.inner info.span.start.offset) = _
        simp only [ne_eq, faithful.inner.eq_iff]
  simp only [checkLabel, repeated]
  rfl

theorem declared_recast (stmt : Stmt) :
    (stmt.recast relocation.bound).declared? =
      stmt.declared?.map (Prod.map id (Span.recast relocation.inner)) := by
  cases stmt with
  | declare info decl =>
      simp only [Stmt.recast, Stmt.declared?]
      change (if info.faulty then none else _) = _
      split <;> rfl
  | _ => rfl

/-- Where what is around a body keeps apart from it, its variables are used as before. -/
theorem close (faithful : relocation.Faithful) (body : List Stmt) :
    Tracks relocation.Uniform (Stmt.listRecast relocation.bound) (closeScope body)
      (closeScope (Stmt.listRecast relocation.bound body)) := by
  refine ⟨rfl, fun uniform => ?_⟩
  have unused : unusedVariables (Stmt.listRecast relocation.bound body) =
      (unusedVariables body).map (Prod.map id (Span.recast relocation.inner)) := by
    have used (start : Nat) :
        Use.isUsed (Stmt.listUses (Stmt.listRecast relocation.bound body))
            (relocation.inner start) = Use.isUsed (Stmt.listUses body) start := by
      simp only [Use.is_used_eq, Stmt.list_targets_recast uniform,
        List.mem_map_of_injective faithful.inner]
    have listed : (Stmt.listRecast relocation.bound body).filterMap Stmt.declared? =
        (body.filterMap Stmt.declared?).map (Prod.map id (Span.recast relocation.inner)) := by
      rw [Stmt.list_recast_eq, List.filterMap_map, List.map_filterMap]
      exact List.filterMap_congr fun stmt _ => declared_recast stmt
    simp only [unusedVariables, listed, List.filter_map]
    refine congrArg _ (List.filter_congr fun found _ => ?_)
    exact congrArg _ (used found.2.start.offset)
  simp only [Checked.problems, closeScope, unused, List.map_map]
  rfl

theorem expr_list (view : View) (list : ExprList) :
    Tracks apart (ExprList.recast relocation.bound) (checkExprList view list)
      (checkExprList (view.relocate relocation) (list.recast relocation.unbound)) := by
  have kept (expr : Expr) : Tracks apart (Expr.recast relocation.linking)
      (Pure.pure expr : Checked Expr) (Pure.pure (expr.recast relocation.linking)) := .pure rfl
  have members : Tracks apart (List.map (Expr.recast relocation.linking)) _ _ :=
    exprs view kept list.members
  rw [Expr.list_recast_eq] at members
  exact members.bind fun _ => .pure rfl

mutual

theorem stmt (faithful : relocation.Faithful) (frame : Frame) (inside : frame.scopes ≠ [])
    (stmt : Stmt) :
    Tracks relocation.Uniform (Stmt.recast relocation.bound) (checkStmt frame stmt)
      (checkStmt (frame.relocate relocation) (stmt.recast relocation.unbound)) := by
  match stmt with
  | .block scope body =>
      have inner := stmts faithful (frame.enter scope) (List.cons_ne_nil _ _) body
      exact (inner.bind (close faithful)).bind fun body => .pure rfl
  | .declare info decl => exact declaration frame info decl
  | .perform info value => exact (expr frame.view value).bind fun value => .pure rfl
  | .giveBack info value => exact give_back frame info value
  | .jump info name target => exact jump faithful frame info name
  | .label info name => exact .pure (label faithful frame info name)
  | .changeState info name target => exact state_change frame info name
  | .branch info first test scope body rest =>
      have inner := stmts faithful (frame.enter scope) (List.cons_ne_nil _ _) body
      refine (condition frame.view test).bind fun test => ?_
      refine (inner.bind (close faithful)).bind fun body => ?_
      exact (alternatives faithful frame inside rest).bind fun rest => .pure rfl
  | .whileLoop info test scope body =>
      have inner := stmts faithful (frame.enter scope) (List.cons_ne_nil _ _) body
      refine (condition frame.view test).bind fun test => ?_
      exact (inner.bind (close faithful)).bind fun body => .pure rfl
  | .doLoop info scope body test =>
      have inner := stmts faithful (frame.enter scope) (List.cons_ne_nil _ _) body
      refine (inner.bind (close faithful)).bind fun body => ?_
      exact (condition frame.view test).bind fun test => .pure rfl
  | .forLoop info init test afterthought scope body =>
      have inner := stmts faithful (frame.enter scope) (List.cons_ne_nil _ _) body
      refine (option (expr_list frame.view) init).bind fun init => ?_
      refine (option (condition frame.view) test).bind fun test => ?_
      refine (option (expr_list frame.view) afterthought).bind fun afterthought => ?_
      exact (inner.bind (close faithful)).bind fun body => .pure rfl
  | .empty info => exact .pure rfl
  | .broken span => exact .pure rfl

theorem stmts (faithful : relocation.Faithful) (frame : Frame) (inside : frame.scopes ≠ [])
    (body : List Stmt) :
    Tracks relocation.Uniform (Stmt.listRecast relocation.bound) (checkStmts frame body)
      (checkStmts (frame.relocate relocation) (Stmt.listRecast relocation.unbound body)) := by
  match body with
  | [] => exact .pure rfl
  | stmt :: rest =>
      refine (Tracks.stmt faithful frame inside stmt).bind fun stmt => ?_
      rw [Frame.behind_relocate frame inside]
      have still : (frame.behind stmt).scopes ≠ [] := by rwa [Frame.behind_scopes]
      exact (stmts faithful (frame.behind stmt) still rest).bind fun rest => .pure rfl

theorem alternatives (faithful : relocation.Faithful) (frame : Frame) (inside : frame.scopes ≠ [])
    (rest : Alternatives) :
    Tracks relocation.Uniform (Alternatives.recast relocation.bound) (checkAlternatives frame rest)
      (checkAlternatives (frame.relocate relocation) (rest.recast relocation.unbound)) := by
  match rest with
  | .done => exact .pure rfl
  | .elseIf span test scope body rest =>
      have inner := stmts faithful (frame.enter scope) (List.cons_ne_nil _ _) body
      refine (condition frame.view test).bind fun test => ?_
      refine (inner.bind (close faithful)).bind fun body => ?_
      exact (alternatives faithful frame inside rest).bind fun rest => .pure rfl
  | .otherwise span scope body =>
      have inner := stmts faithful (frame.enter scope) (List.cons_ne_nil _ _) body
      exact (inner.bind (close faithful)).bind fun body => .pure rfl

end

end Checked.Tracks

end Lsl
