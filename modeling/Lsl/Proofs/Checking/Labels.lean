import Lsl.Proofs.Checking.CheckedBody

/-!
The labels of a body that is checked without an error. No two of them have one name, and a jump goes
to the one whose name it gives.
-/

set_option autoImplicit false

namespace Lsl

namespace Stmt

/-- The label that a statement of a scope is. -/
def labelPlace? (scope : Nat) : Stmt → Option LabelPlace
  | label info name => some ⟨name, info.span, scope⟩
  | _ => none

/-- The name that a jump gives, with the label it is bound to. -/
def jump? : Stmt → Option (String × Option JumpTarget)
  | jump _ name target => some (name, target)
  | _ => none

theorem labels_eq (scope : Nat) (stmt : Stmt) :
    stmt.labels scope = (stmt.labelPlace? scope).toList ++
      stmt.parts.flatMap fun part => listLabels part.info.id part.body := by
  cases stmt <;> simp [labels, labelPlace?, parts, Alternatives.labels_eq]

theorem list_labels_cons (scope : Nat) (stmt : Stmt) (rest : List Stmt) :
    listLabels scope (stmt :: rest) = (stmt.labelPlace? scope).toList ++
      (stmt.parts.flatMap fun part => listLabels part.info.id part.body) ++
        listLabels scope rest := by
  rw [listLabels, labels_eq]

theorem label_place_check (frame : Frame) (scope : Nat) (stmt : Stmt) :
    (checkStmt frame stmt).value.labelPlace? scope = stmt.labelPlace? scope := by
  cases stmt with
  | declare info decl =>
      obtain ⟨after, _, form⟩ := check_declaration_form frame info decl
      rw [checkStmt, form]
      rfl
  | giveBack info value =>
      obtain ⟨after, found, _, form, _⟩ := check_return_form frame info value
      rw [checkStmt, form]
      rfl
  | jump info name target =>
      obtain ⟨after, found, _, form⟩ := check_jump_form frame info name
      rw [checkStmt, form]
      rfl
  | changeState info name target =>
      obtain ⟨after, found, _, form⟩ := check_state_change_form frame info name
      rw [checkStmt, form]
      rfl
  | _ => simp [checkStmt, checkLabel, labelPlace?]

theorem list_labels_check (frame : Frame) (scope : Nat) (body : List Stmt) :
    listLabels scope (checkStmts frame body).value = listLabels scope body := by
  induction body using Stmt.list_induction generalizing frame scope with
  | nil => rfl
  | cons stmt rest inner outer =>
      have parts : (stmt.parts.flatMap fun part =>
          listLabels part.info.id (part.checked frame).body) =
          stmt.parts.flatMap fun part => listLabels part.info.id part.body :=
        List.flatMap_congr fun part member => inner part member _ _
      rw [value_check_cons, list_labels_cons, list_labels_cons, label_place_check, parts_check,
        List.flatMap_map, outer]
      exact congrArg (fun own => _ ++ own ++ _) parts

theorem label_place_marked (reach : Reachability) (scope : Nat) (stmt : Stmt) :
    (stmt.marked reach).labelPlace? scope = stmt.labelPlace? scope := by
  cases stmt <;> rfl

theorem list_labels_marked (reach : Reachability) (scope : Nat) (body : List Stmt) :
    listLabels scope (listMarked reach body) = listLabels scope body := by
  induction body using Stmt.list_induction generalizing scope with
  | nil => rfl
  | cons stmt rest inner outer =>
      have parts : (stmt.parts.flatMap fun part =>
          listLabels part.info.id (part.marked reach).body) =
          stmt.parts.flatMap fun part => listLabels part.info.id part.body :=
        List.flatMap_congr fun part member => inner part member _
      rw [listMarked, list_labels_cons, list_labels_cons, label_place_marked, parts_marked,
        List.flatMap_map, outer]
      exact congrArg (fun own => _ ++ own ++ _) parts

theorem list_labels_settle (scope : Nat) (body : List Stmt) :
    listLabels scope (settleBody body).1 = listLabels scope body := by
  rw [← list_labels_marked .live, settleBody, list_marked_settle, list_labels_marked]

theorem jump_marked (reach : Reachability) (stmt : Stmt) :
    (stmt.marked reach).jump? = stmt.jump? := by
  cases stmt <;> rfl

theorem start_of_label_place {scope : Nat} {stmt : Stmt} {place : LabelPlace}
    (labels : stmt.labelPlace? scope = some place) : stmt.start = place.start := by
  cases stmt with
  | label info name =>
      obtain rfl := Option.some.inj labels
      rfl
  | _ => cases labels

theorem label_statement {scope : Nat} {body : List Stmt} {place : LabelPlace}
    (member : place ∈ listLabels scope body) :
    ∃ stmt ∈ listStatements body, ∃ holder, stmt.labelPlace? holder = some place := by
  induction body using Stmt.list_induction generalizing scope with
  | nil => simp [listLabels] at member
  | cons stmt rest inner outer =>
      simp only [list_labels_cons, List.mem_append, List.mem_flatMap] at member
      rcases member with (own | ⟨part, partMember, inside⟩) | later
      · exact ⟨stmt, mem_list_statements_cons.mpr (.inl rfl), scope, Option.mem_toList.mp own⟩
      · obtain ⟨found, foundInside, known⟩ := inner part partMember inside
        exact ⟨found, mem_of_part partMember foundInside, known⟩
      · obtain ⟨found, foundInside, known⟩ := outer later
        exact ⟨found, mem_of_rest foundInside, known⟩

end Stmt

theorem check_jump_named {frame : Frame} {info : StmtInfo} {name : String}
    (silent : (checkJump frame info name).Silent) :
    ∃ label ∈ frame.labels, label.name = name ∧
      (checkJump frame info name).value.jump? = some (name, some ⟨label.start, true⟩) := by
  unfold checkJump at silent ⊢
  split at silent
  · simp [Problem.severity] at silent
  · rename_i label found
    have named : label.name = name := by simpa using List.find?_some found
    dsimp only at silent ⊢
    split at silent
    · rename_i reach
      refine ⟨label, List.mem_of_find?_eq_some found, named, ?_⟩
      rw [if_pos reach, reach]
      rfl
    · simp [Problem.severity] at silent

/-- A jump of a checked body is bound to a label with the name it gives. -/
theorem jump_check {frame : Frame} {body : List Stmt} (silent : (checkStmts frame body).Silent)
    {stmt : Stmt} (inside : stmt ∈ Stmt.listStatements (checkStmts frame body).value)
    {name : String} {target : Option JumpTarget} (jumps : stmt.jump? = some (name, target)) :
    ∃ label ∈ frame.labels, label.name = name ∧ target = some ⟨label.start, true⟩ := by
  induction body using Stmt.list_induction generalizing frame with
  | nil => simp [checkStmts, Stmt.listStatements] at inside
  | cons head rest inner outer =>
      simp only [checkStmts, Checked.silent_bind] at silent
      obtain ⟨own, others, _⟩ := silent
      rw [Stmt.value_check_cons] at inside
      rcases Stmt.mem_list_statements_cons.mp inside with rfl | ⟨part, member, inside⟩ | inside
      · cases head with
        | jump info label found =>
            obtain ⟨place, known, same, bound⟩ := check_jump_named own
            have equal := Option.some.inj (jumps.symm.trans bound)
            obtain ⟨rfl, rfl⟩ := Prod.mk.inj equal
            exact ⟨place, known, same, rfl⟩
        | declare info decl =>
            obtain ⟨after, _, form⟩ := check_declaration_form frame info decl
            rw [checkStmt, form] at jumps
            cases jumps
        | giveBack info value =>
            obtain ⟨after, found, _, form, _⟩ := check_return_form frame info value
            rw [checkStmt, form] at jumps
            cases jumps
        | changeState info state found =>
            obtain ⟨after, found, _, form⟩ := check_state_change_form frame info state
            rw [checkStmt, form] at jumps
            cases jumps
        | _ => simp [checkStmt, checkLabel, Stmt.jump?] at jumps
      · rw [Stmt.parts_check] at member
        obtain ⟨source, sourceMember, rfl⟩ := List.mem_map.mp member
        have checked := Stmt.silent_parts own source sourceMember
        have found := inner source sourceMember checked inside
        exact found
      · simpa using outer others inside

namespace CodeScope.Passed

variable {outlook : Outlook} {owner : Owner} {parameters : ParameterList} {code : CodeScope}
  (passed : code.Passed outlook owner parameters)

include passed

theorem labels_distinct : ((Stmt.listLabels code.info.id code.body).map (·.name)).Nodup := by
  obtain ⟨_, _, _, silent⟩ := passed
  simp only [checkBody, Checked.silent_bind] at silent
  simp only [checkBody, Checked.value_bind, Checked.value_pure, value_close_scope,
    Stmt.list_labels_settle, Stmt.list_labels_check]
  simpa using (declare_labels_silent silent.1 (by simp)).2

/-- A jump is bound to the label whose name it gives. -/
theorem jump_named {stmt : Stmt} (inside : stmt ∈ Stmt.listStatements code.body) {name : String}
    {target : Option JumpTarget} (jumps : stmt.jump? = some (name, target)) :
    ∃ label ∈ Stmt.listLabels code.info.id code.body, label.name = name ∧
      target = some ⟨label.start, true⟩ := by
  obtain ⟨_, _, _, silent⟩ := passed
  simp only [checkBody, Checked.silent_bind] at silent
  simp only [checkBody, Checked.value_bind, Checked.value_pure, value_close_scope,
    Stmt.list_labels_settle, Stmt.list_labels_check] at inside ⊢
  obtain ⟨labelled, _, ⟨checked, _⟩, _⟩ := silent
  obtain ⟨source, sourceInside, same⟩ := Stmt.settle_statement inside
  rw [← Stmt.jump_marked .live, ← same, Stmt.jump_marked] at jumps
  obtain ⟨label, known, bound⟩ := jump_check checked sourceInside jumps
  refine ⟨label, ?_, bound⟩
  simpa using declare_labels_subset [] _ label known

end CodeScope.Passed

end Lsl
