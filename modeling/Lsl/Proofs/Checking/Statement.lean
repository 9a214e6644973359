import Lsl.Checking.Statement
import Lsl.Proofs.Checking.Expression
import Lsl.Proofs.Flow.Jumps
import Lsl.Proofs.Flow.Scoping

/-!
Checked statements. Checking keeps where statements start and how their scopes are nested. If it
reports no error, every jump is bound to a label around it; and every name is bound to a variable
that is declared in front of it.
-/

set_option autoImplicit false

namespace Lsl

/-- No error was reported. Warnings may have been. -/
def Checked.Silent {α : Type} (checked : Checked α) : Prop :=
  ∀ report ∈ checked.reports, report.isError = false

instance {α : Type} (checked : Checked α) : Decidable checked.Silent :=
  inferInstanceAs (Decidable (∀ report ∈ checked.reports, report.isError = false))

namespace Checked

variable {α β : Type}

@[simp] theorem silent_bind (first : Checked α) (next : α → Checked β) :
    (first >>= next).Silent ↔ first.Silent ∧ (next first.value).Silent := by
  simp [Silent, or_imp, forall_and]

end Checked

@[simp] theorem silent_blame (info : StmtInfo) (problem : Problem) :
    (info.blame problem).Silent ↔ problem.severity ≠ .error := by
  simp [Checked.Silent, StmtInfo.blame, Diagnostic.isError]

@[simp] theorem value_close_scope (body : List Stmt) : (closeScope body).value = body := rfl

/-- A scope with its statements checked. -/
def CodeScope.checked (frame : Frame) (scope : CodeScope) : CodeScope :=
  ⟨scope.info, (checkStmts (frame.enter scope.info) scope.body).value⟩

/-- What checking keeps of a statement. -/
structure Stmt.Keeps (before after : Stmt) : Prop where
  span : after.span = before.span
  reach : after.reach = before.reach
  broken : after.isBroken = before.isBroken
  label : after.labelStart? = before.labelStart?
  declaration : after.declaration? = before.declaration?
  jump : ∀ target, after.target? = some target → ∃ info name found, before = .jump info name found

/-- Two notes of a statement that differ at most in whether it is at fault. -/
def StmtInfo.Agrees (before after : StmtInfo) : Prop :=
  after.span = before.span ∧ after.reach = before.reach

section

variable (frame : Frame) (info : StmtInfo)

theorem check_declaration_form (decl : Variable) :
    ∃ after, info.Agrees after ∧ (checkDeclaration frame info decl).value =
      .declare after { decl with
        initializer :=
          (checkOption (checkInitializer frame.view decl.type) decl.initializer).value } := by
  simp only [checkDeclaration, Checked.value_bind]
  split
  · exact ⟨{ info with faulty := true }, ⟨rfl, rfl⟩, rfl⟩
  · exact ⟨info, ⟨rfl, rfl⟩, rfl⟩

theorem check_return_form (value : Option Expr) :
    ∃ after found, info.Agrees after ∧ (checkReturn frame info value).value = .giveBack after found ∧
      found.toList.flatMap Expr.mentions =
        (checkOption (checkExpr frame.view) value).value.toList.flatMap Expr.mentions := by
  simp only [checkReturn, Checked.value_bind]
  split
  case h_1 _ _ same => exact ⟨info, _, ⟨rfl, rfl⟩, rfl, by rw [same]⟩
  case h_2 _ _ same => exact ⟨{ info with faulty := true }, _, ⟨rfl, rfl⟩, rfl, by rw [same]⟩
  case h_3 same => exact ⟨info, _, ⟨rfl, rfl⟩, rfl, by simp [same]⟩
  case h_4 same =>
    split
    · exact ⟨info, none, ⟨rfl, rfl⟩, rfl, by rw [same]⟩
    · exact ⟨{ info with faulty := true }, none, ⟨rfl, rfl⟩, rfl, by rw [same]⟩
  case h_5 same => exact ⟨info, none, ⟨rfl, rfl⟩, rfl, by rw [same]⟩

theorem check_jump_form (name : String) :
    ∃ after target, info.Agrees after ∧ (checkJump frame info name).value =
      .jump after name target := by
  simp only [checkJump]
  split
  · exact ⟨{ info with faulty := true }, none, ⟨rfl, rfl⟩, rfl⟩
  · split
    · exact ⟨info, _, ⟨rfl, rfl⟩, rfl⟩
    · exact ⟨{ info with faulty := true }, _, ⟨rfl, rfl⟩, rfl⟩

theorem check_state_change_form (name : String) :
    ∃ after target, info.Agrees after ∧ (checkStateChange frame info name).value =
      .changeState after name target := by
  simp only [checkStateChange]
  split
  · exact ⟨{ info with faulty := true }, none, ⟨rfl, rfl⟩, rfl⟩
  · split
    · exact ⟨info, _, ⟨rfl, rfl⟩, rfl⟩
    · exact ⟨info, _, ⟨rfl, rfl⟩, rfl⟩

end

theorem Alternatives.parts_check (frame : Frame) (rest : Alternatives) :
    (checkAlternatives frame rest).value.parts = rest.parts.map (CodeScope.checked frame) := by
  match rest with
  | .done => rfl
  | .elseIf _ _ _ _ rest =>
      have others := rest.parts_check frame
      simp [checkAlternatives, Alternatives.parts, CodeScope.checked, others]
  | .otherwise _ _ _ => simp [checkAlternatives, Alternatives.parts, CodeScope.checked]

theorem Alternatives.silent_parts {frame : Frame} {rest : Alternatives}
    (silent : (checkAlternatives frame rest).Silent) :
    ∀ part ∈ rest.parts, (checkStmts (frame.enter part.info) part.body).Silent := by
  match rest with
  | .done => simp [Alternatives.parts]
  | .elseIf _ _ scope body rest =>
      simp only [checkAlternatives, Checked.silent_bind] at silent
      obtain ⟨_, ⟨own, _⟩, others, _⟩ := silent
      intro part member
      rcases List.mem_cons.mp member with rfl | member
      · exact own
      · exact Alternatives.silent_parts others part member
  | .otherwise _ scope body =>
      simp only [checkAlternatives, Checked.silent_bind] at silent
      intro part member
      obtain rfl := List.mem_singleton.mp member
      exact silent.1.1

namespace Stmt

theorem keeps_check (frame : Frame) (stmt : Stmt) : stmt.Keeps (checkStmt frame stmt).value := by
  cases stmt with
  | declare info decl =>
      obtain ⟨after, ⟨span, reach⟩, form⟩ := check_declaration_form frame info decl
      rw [checkStmt, form]
      exact ⟨span, reach, rfl, rfl, by simp [declaration?, span], by simp [target?]⟩
  | giveBack info value =>
      obtain ⟨after, found, ⟨span, reach⟩, form, _⟩ := check_return_form frame info value
      rw [checkStmt, form]
      exact ⟨span, reach, rfl, rfl, rfl, by simp [target?]⟩
  | jump info label target =>
      obtain ⟨after, found, ⟨span, reach⟩, form⟩ := check_jump_form frame info label
      rw [checkStmt, form]
      exact ⟨span, reach, rfl, rfl, rfl, fun _ _ => ⟨info, label, target, rfl⟩⟩
  | changeState info state target =>
      obtain ⟨after, found, ⟨span, reach⟩, form⟩ := check_state_change_form frame info state
      rw [checkStmt, form]
      exact ⟨span, reach, rfl, rfl, rfl, by simp [target?]⟩
  | _ => exact ⟨rfl, rfl, rfl, rfl, rfl, by simp [checkStmt, checkLabel, target?]⟩

theorem parts_check (frame : Frame) (stmt : Stmt) :
    (checkStmt frame stmt).value.parts = stmt.parts.map (CodeScope.checked frame) := by
  cases stmt with
  | declare info decl =>
      obtain ⟨after, _, form⟩ := check_declaration_form frame info decl
      rw [checkStmt, form]
      rfl
  | giveBack info value =>
      obtain ⟨after, found, _, form, _⟩ := check_return_form frame info value
      rw [checkStmt, form]
      rfl
  | jump info label target =>
      obtain ⟨after, found, _, form⟩ := check_jump_form frame info label
      rw [checkStmt, form]
      rfl
  | changeState info state target =>
      obtain ⟨after, found, _, form⟩ := check_state_change_form frame info state
      rw [checkStmt, form]
      rfl
  | label info name => rfl
  | _ => simp [checkStmt, parts, CodeScope.checked, Alternatives.parts_check]

/-- An error in a scope is an error of its statement. -/
theorem silent_parts {frame : Frame} {stmt : Stmt} (silent : (checkStmt frame stmt).Silent) :
    ∀ part ∈ stmt.parts, (checkStmts (frame.enter part.info) part.body).Silent := by
  intro part member
  cases stmt with
  | block scope body =>
      obtain rfl := List.mem_singleton.mp member
      simp only [checkStmt, Checked.silent_bind] at silent
      exact silent.1.1
  | branch info first condition scope body rest =>
      simp only [checkStmt, Checked.silent_bind] at silent
      obtain ⟨_, ⟨own, _⟩, others, _⟩ := silent
      rcases List.mem_cons.mp member with rfl | member
      · exact own
      · exact Alternatives.silent_parts others part member
  | whileLoop info condition scope body =>
      obtain rfl := List.mem_singleton.mp member
      simp only [checkStmt, Checked.silent_bind] at silent
      exact silent.2.1.1
  | doLoop info scope body condition =>
      obtain rfl := List.mem_singleton.mp member
      simp only [checkStmt, Checked.silent_bind] at silent
      exact silent.1.1
  | forLoop info init condition afterthought scope body =>
      obtain rfl := List.mem_singleton.mp member
      simp only [checkStmt, Checked.silent_bind] at silent
      exact silent.2.2.2.1.1
  | _ => simp [parts] at member

theorem value_check_cons (frame : Frame) (stmt : Stmt) (rest : List Stmt) :
    (checkStmts frame (stmt :: rest)).value =
      (checkStmt frame stmt).value ::
        (checkStmts (frame.behind (checkStmt frame stmt).value) rest).value :=
  rfl

theorem start_check (frame : Frame) (stmt : Stmt) :
    (checkStmt frame stmt).value.start = stmt.start := by
  rw [start, start, (keeps_check frame stmt).span]

theorem list_starts_check (frame : Frame) (body : List Stmt) :
    listStarts (checkStmts frame body).value = listStarts body := by
  induction body using Stmt.list_induction generalizing frame with
  | nil => rfl
  | cons stmt rest inner outer =>
      have parts : (stmt.parts.flatMap fun part => listStarts (part.checked frame).body) =
          stmt.parts.flatMap fun part => listStarts part.body :=
        List.flatMap_congr fun part member => inner part member _
      rw [value_check_cons, list_starts_cons, list_starts_cons, start_check, parts_check,
        List.flatMap_map, parts, outer]

theorem label_starts_check (frame : Frame) (body : List Stmt) :
    labelStarts (checkStmts frame body).value = labelStarts body := by
  induction body generalizing frame with
  | nil => rfl
  | cons stmt rest induction =>
      have others := induction (frame.behind (checkStmt frame stmt).value)
      simp only [labelStarts] at others
      simp only [value_check_cons, labelStarts, List.filterMap_cons, (keeps_check frame stmt).label,
        others]

theorem fresh_check (frame : Frame) {body : List Stmt} (fresh : Fresh body) :
    Fresh (checkStmts frame body).value := by
  induction body using Stmt.list_induction generalizing frame with
  | nil => exact fresh
  | cons stmt rest inner outer =>
      obtain ⟨⟨whole, unmarked⟩, parts, others⟩ := fresh_cons.mp fresh
      have keeps := keeps_check frame stmt
      rw [value_check_cons]
      refine fresh_cons.mpr ⟨⟨keeps.broken.trans whole, ?_⟩, ?_, outer _ others⟩
      · have same : (checkStmt frame stmt).value.marks = stmt.marks := by
          simp only [marks, keeps.reach, parts_check, List.map_map]
          rfl
        rwa [same]
      · intro part member
        rw [parts_check] at member
        obtain ⟨source, sourceMember, rfl⟩ := List.mem_map.mp member
        exact inner source sourceMember _ (parts source sourceMember)

end Stmt

namespace Frame

@[simp] theorem labels_behind (frame : Frame) (stmt : Stmt) :
    (frame.behind stmt).labels = frame.labels := by
  unfold behind
  split
  · split <;> rfl
  · rfl

@[simp] theorem scopes_behind (frame : Frame) (stmt : Stmt) :
    (frame.behind stmt).scopes = frame.scopes := by
  unfold behind
  split
  · split <;> rfl
  · rfl

theorem sees_behind {frame : Frame} {visible : List Nat} (sees : frame.view.Sees visible)
    (stmt : Stmt) : (frame.behind stmt).view.Sees (stmt.declaration?.toList ++ visible) := by
  have widened : frame.view.Sees (stmt.declaration?.toList ++ visible) :=
    ⟨fun found member start bound => List.mem_append_right _ (sees.locals found member start bound),
      sees.globals⟩
  unfold behind
  split
  · split
    · exact widened
    · refine ⟨?_, sees.globals⟩
      intro found member start bound
      rcases List.mem_cons.mp member with rfl | member
      · simp only [Binding.local?, Option.mem_some_iff] at bound
        simp [Stmt.declaration?, bound]
      · exact widened.locals found member start bound
  · exact widened

end Frame

/-- A jump that is not at fault goes to a label in a scope around it. -/
theorem check_jump_bound {frame : Frame} {info : StmtInfo} {name : String}
    (silent : (checkJump frame info name).Silent) :
    ∃ label ∈ frame.labels, label.scope ∈ frame.scopes ∧
      (checkJump frame info name).value.target? = some ⟨label.start, true⟩ := by
  unfold checkJump at silent ⊢
  split at silent
  · simp [Problem.severity] at silent
  · rename_i label found
    have known : label ∈ frame.labels := List.mem_of_find?_eq_some found
    dsimp only at silent ⊢
    split at silent
    · rename_i reach
      refine ⟨label, known, by simpa using reach, ?_⟩
      rw [if_pos reach, reach]
      rfl
    · simp [Problem.severity] at silent

theorem bound_check {frame : Frame} {body : List Stmt} {around : List Nat}
    (silent : (checkStmts frame body).Silent)
    (seen : ∀ label ∈ frame.labels, label.scope ∈ frame.scopes → label.start ∈ around)
    (placed : ∀ scope ∈ Stmt.listScopes body, ∀ label ∈ frame.labels,
      label.scope = scope.info.id → label.start ∈ Stmt.labelStarts scope.body) :
    Bound around (checkStmts frame body).value := by
  induction body using Stmt.list_induction generalizing frame around with
  | nil => exact .nil around
  | cons stmt rest inner outer =>
      simp only [checkStmts, Checked.silent_bind] at silent
      obtain ⟨head, others, _⟩ := silent
      rw [Stmt.value_check_cons]
      refine .cons ?_ ?_ (outer others ?_ ?_)
      · intro target goes
        obtain ⟨info, name, found, rfl⟩ := (Stmt.keeps_check frame stmt).jump target goes
        obtain ⟨label, known, near, same⟩ := check_jump_bound head
        have equal : target = ⟨label.start, true⟩ := Option.some.inj (goes.symm.trans same)
        rw [equal]
        exact ⟨rfl, seen label known near⟩
      · intro part member
        rw [Stmt.parts_check] at member
        obtain ⟨source, sourceMember, rfl⟩ := List.mem_map.mp member
        have own : source ∈ Stmt.listScopes (stmt :: rest) :=
          Stmt.mem_list_scopes_cons.mpr (.inl ⟨source, sourceMember, .inl rfl⟩)
        refine inner source sourceMember (Stmt.silent_parts head source sourceMember) ?_ ?_
        · -- A label that comes into reach stands in the scope that was entered.
          intro label known near
          rw [CodeScope.checked, Stmt.label_starts_check]
          rcases List.mem_cons.mp near with same | near
          · exact List.mem_append_left _ (placed source own label known same)
          · exact List.mem_append_right _ (seen label known near)
        · intro scope inside
          exact placed scope
            (Stmt.mem_list_scopes_cons.mpr (.inl ⟨source, sourceMember, .inr inside⟩))
      · simpa using seen
      · intro scope inside
        simpa using placed scope (Stmt.mem_list_scopes_cons.mpr (.inr inside))

/-- Whatever can be referred to from a frame is on offer. -/
structure Frame.Offers (frame : Frame) (offered : Referent → Prop) : Prop where
  view : frame.view.Offers offered
  labels : ∀ label ∈ frame.labels, offered ⟨.label, label.start⟩
  states : ∀ name start, frame.states.lookup name = some start → offered ⟨.state, start⟩

section

variable {offered : Referent → Prop}

theorem check_option_binds {check : Expr → Checked Expr} {value : Option Expr}
    (each : ∀ expr ∈ value, Mention.AllBind offered expr.mentions (check expr).value.mentions) :
    Mention.AllBind offered (value.toList.flatMap Expr.mentions)
      ((checkOption check value).value.toList.flatMap Expr.mentions) := by
  cases value with
  | none => exact .nil
  | some value => simpa [checkOption] using each value rfl

variable {frame : Frame}

section

variable (offers : frame.view.Offers offered)

include offers

theorem check_condition_binds (condition : Expr) :
    Mention.AllBind offered condition.mentions
      (checkCondition frame.view condition).value.mentions := by
  simpa [checkCondition] using check_expr_binds offers condition

theorem check_conditions_bind (rest : Alternatives) :
    Mention.AllBind offered (rest.conditions.flatMap Expr.mentions)
      ((checkAlternatives frame rest).value.conditions.flatMap Expr.mentions) := by
  match rest with
  | .done => exact .nil
  | .elseIf _ condition _ _ rest =>
      have others := check_conditions_bind rest
      simpa [checkAlternatives, Alternatives.conditions] using
        (check_condition_binds offers condition).append others
  | .otherwise _ _ _ => exact .nil

theorem check_list_binds (list : Option ExprList) :
    Mention.AllBind offered ((Stmt.listExprs list).flatMap Expr.mentions)
      ((Stmt.listExprs (checkOption (checkExprList frame.view) list).value).flatMap
        Expr.mentions) := by
  cases list with
  | none => exact .nil
  | some list => exact check_exprs_bind (fun _ => rfl) fun expr _ => check_expr_binds offers expr

end

theorem check_jump_binds (labels : ∀ label ∈ frame.labels, offered ⟨.label, label.start⟩)
    (info : StmtInfo) (name : String) (target : Option JumpTarget) :
    Mention.AllBind offered (Stmt.jump info name target).mentions
      (checkJump frame info name).value.mentions := by
  unfold checkJump
  split
  · exact .cons ⟨rfl, by simp⟩ .nil
  · rename_i label found
    have known := labels label (List.mem_of_find?_eq_some found)
    dsimp only
    split <;> exact .cons ⟨rfl, by simpa using known⟩ .nil

theorem check_state_change_binds
    (states : ∀ name start, frame.states.lookup name = some start → offered ⟨.state, start⟩)
    (info : StmtInfo) (name : String) (target : Option Nat) :
    Mention.AllBind offered (Stmt.changeState info name target).mentions
      (checkStateChange frame info name).value.mentions := by
  unfold checkStateChange
  split
  · exact .cons ⟨rfl, by simp⟩ .nil
  · rename_i start found
    have known := states name start found
    split <;> exact .cons ⟨rfl, by simpa using known⟩ .nil

/-- Whatever a checked statement mentions is bound to something that was on offer in front of it. -/
theorem check_stmt_binds (offers : frame.Offers offered) (stmt : Stmt) :
    Mention.AllBind offered stmt.mentions (checkStmt frame stmt).value.mentions := by
  have exprs (expr : Expr) : Mention.AllBind offered expr.mentions
      (checkExpr frame.view expr).value.mentions := check_expr_binds offers.view expr
  cases stmt with
  | declare info decl =>
      obtain ⟨after, _, form⟩ := check_declaration_form frame info decl
      rw [checkStmt, form]
      refine check_option_binds fun value _ => ?_
      simpa [checkInitializer] using exprs value
  | perform info value => simpa [checkStmt, Stmt.mentions, Stmt.mention?, Stmt.exprs] using exprs value
  | giveBack info value =>
      obtain ⟨after, found, _, form, same⟩ := check_return_form frame info value
      rw [checkStmt, form]
      simp only [Stmt.mentions, Stmt.mention?, Stmt.exprs, same]
      exact check_option_binds fun value _ => exprs value
  | jump info name target => exact check_jump_binds offers.labels info name target
  | changeState info name target => exact check_state_change_binds offers.states info name target
  | branch info first condition scope body rest =>
      simpa [checkStmt, Stmt.mentions, Stmt.mention?, Stmt.exprs] using
        (check_condition_binds offers.view condition).append (check_conditions_bind offers.view rest)
  | whileLoop info condition scope body =>
      simpa [checkStmt, Stmt.mentions, Stmt.mention?, Stmt.exprs] using
        check_condition_binds offers.view condition
  | doLoop info scope body condition =>
      simpa [checkStmt, Stmt.mentions, Stmt.mention?, Stmt.exprs] using
        check_condition_binds offers.view condition
  | forLoop info init condition afterthought scope body =>
      have tested : Mention.AllBind offered (condition.toList.flatMap Expr.mentions)
          ((checkOption (checkCondition frame.view) condition).value.toList.flatMap
            Expr.mentions) :=
        check_option_binds fun value _ => check_condition_binds offers.view value
      have whole := ((check_list_binds offers.view init).append tested).append
        (check_list_binds offers.view afterthought)
      simpa [checkStmt, Stmt.mentions, Stmt.mention?, Stmt.exprs] using whole
  | _ => exact .nil

end

/-- A checked statement refers to the local variables that were in view in front of it. -/
theorem check_stmt_sees {frame : Frame} {visible : List Nat} (sees : frame.view.Sees visible)
    (stmt : Stmt) : ∀ start ∈ (checkStmt frame stmt).value.locals, start ∈ visible := by
  intro start refers
  obtain ⟨mention, member, bound⟩ := Stmt.mem_locals.mp refers
  have offers : frame.Offers (Referent.IsSeen visible) :=
    ⟨sees.offers, fun _ _ => nofun, fun _ _ _ => nofun⟩
  exact (check_stmt_binds offers stmt).known mention member _ bound rfl

theorem scoped_check {frame : Frame} {visible : List Nat} (sees : frame.view.Sees visible)
    (body : List Stmt) : Scoped visible (checkStmts frame body).value := by
  induction body using Stmt.list_induction generalizing frame visible with
  | nil => exact .nil visible
  | cons stmt rest inner outer =>
      rw [Stmt.value_check_cons]
      refine .cons (check_stmt_sees sees stmt) ?_ (outer (frame.sees_behind sees _))
      intro part member
      rw [Stmt.parts_check] at member
      obtain ⟨source, sourceMember, rfl⟩ := List.mem_map.mp member
      exact inner source sourceMember sees

end Lsl
