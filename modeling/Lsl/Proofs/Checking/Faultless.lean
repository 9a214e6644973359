import Lsl.Proofs.Checking.Body
import Lsl.Proofs.Checking.Readiness
import Lsl.Proofs.Parsing.Wording

/-!
Nothing is at fault in statements and bodies that are checked without an error, and what is known of
the expressions checked in every view of a body holds of all expressions in it. One such fact is that
a name that stands for a local variable stands for one declared directly in a scope of the body.
-/

set_option autoImplicit false

namespace Lsl

namespace Stmt

/-- A statement that nothing is wrong with, apart from the statements in it. -/
structure Ready (library : Library) (around : Surroundings) (stmt : Stmt) : Prop where
  whole : stmt.isFaulty = false
  exprs : ∀ expr ∈ stmt.exprs, ∀ node ∈ expr.nodes, node.Ready library around

/-- A statement that is not at fault, all nodes of whose expressions are fine. -/
structure Holds (fine : Expr → Prop) (stmt : Stmt) : Prop where
  whole : stmt.isFaulty = false
  exprs : ∀ expr ∈ stmt.exprs, ∀ node ∈ expr.nodes, fine node

theorem Holds.ready {library : Library} {around : Surroundings} {stmt : Stmt}
    (holds : stmt.Holds (·.Ready library around)) : stmt.Ready library around :=
  ⟨holds.whole, holds.exprs⟩

theorem clean_of_holds {fine : Expr → Prop} {body : List Stmt}
    (whole : ∀ node, fine node → node.info.faulty = false)
    (holds : ∀ stmt ∈ listStatements body, stmt.Holds fine) : listHasErrors body = false := by
  induction body using Stmt.list_induction with
  | nil => rfl
  | cons stmt rest inner outer =>
      have head := holds stmt (mem_list_statements_cons.mpr (.inl rfl))
      rw [listHasErrors, Bool.or_eq_false_iff]
      refine ⟨has_errors_iff.mpr ⟨head.whole, ?_, ?_⟩, ?_⟩
      · intro expr member
        exact Expr.clean_of_nodes fun node inside => whole node (head.exprs expr member node inside)
      · intro part member
        exact inner part member fun found inside => holds found (mem_of_part member inside)
      · exact outer fun found inside => holds found (mem_of_rest inside)

end Stmt

/-- What is checked in the view without an error consists of nodes that are fine. -/
def View.Yields (view : View) (fine : Expr → Prop) : Prop :=
  ∀ expr : Expr, expr.Sound → (checkExpr view expr).Silent →
    ∀ node ∈ (checkExpr view expr).value.nodes, fine node

section

variable {view : View} {fine : Expr → Prop} (yields : view.Yields fine)

include yields

theorem holds_demand {expr : Expr} {admits : ValueType → Bool} {problem : ValueType → Problem}
    (error : ∀ type, (problem type).severity = .error) (sound : expr.Sound)
    (silent : (checkExpr view expr >>= fun expr => expr.demand admits problem).Silent) :
    ∀ node ∈ (checkExpr view expr >>= fun expr => expr.demand admits problem).value.nodes,
      fine node := by
  rw [Checked.silent_bind] at silent
  rw [Checked.value_bind, (Expr.demand_silent error silent.2).1]
  exact yields _ sound silent.1

theorem holds_condition {condition : Expr} (sound : condition.Sound)
    (silent : (checkCondition view condition).Silent) :
    ∀ node ∈ (checkCondition view condition).value.nodes, fine node :=
  holds_demand yields (fun _ => rfl) sound silent

theorem holds_initializer {type : ValueType} {value : Expr} (sound : value.Sound)
    (silent : (checkInitializer view type value).Silent) :
    ∀ node ∈ (checkInitializer view type value).value.nodes, fine node :=
  holds_demand yields (fun _ => rfl) sound silent

omit yields in
theorem holds_option {check : Expr → Checked Expr} {value : Option Expr}
    (inner : ∀ expr ∈ value, (check expr).Silent →
      ∀ node ∈ (check expr).value.nodes, fine node)
    (silent : (checkOption check value).Silent) :
    ∀ expr ∈ (checkOption check value).value.toList, ∀ node ∈ expr.nodes, fine node := by
  cases value with
  | none => simp [checkOption]
  | some value =>
      simp only [checkOption, Checked.silent_bind] at silent
      simpa [checkOption] using inner value rfl silent.1

theorem holds_list {list : Option ExprList} (sound : ∀ expr ∈ Stmt.listExprs list, expr.Sound)
    (silent : (checkOption (checkExprList view) list).Silent) :
    ∀ expr ∈ Stmt.listExprs (checkOption (checkExprList view) list).value, ∀ node ∈ expr.nodes,
      fine node := by
  cases list with
  | none => simp [checkOption, Stmt.listExprs]
  | some list =>
      simp only [checkOption, checkExprList, Checked.silent_bind] at silent
      obtain ⟨same, silents⟩ := check_exprs_silent (fun _ _ => rfl) silent.1.1
      intro expr member
      simp only [checkOption, checkExprList, Stmt.listExprs, Checked.value_bind,
        Checked.value_pure, same, List.mem_map] at member
      obtain ⟨source, inside, rfl⟩ := member
      exact yields _ (sound source inside) (silents source inside)

end

section

variable {frame : Frame} {fine : Expr → Prop} (yields : frame.view.Yields fine)

include yields

theorem holds_check_declaration {info : StmtInfo} {decl : Variable} (whole : info.faulty = false)
    (sound : ∀ value ∈ decl.initializer.toList, value.Sound)
    (silent : (checkDeclaration frame info decl).Silent) :
    (checkDeclaration frame info decl).value.Holds fine := by
  unfold checkDeclaration at silent ⊢
  simp only [Checked.silent_bind, Checked.value_bind] at silent ⊢
  obtain ⟨initial, free⟩ := silent
  have fines := holds_option (fun value member => holds_initializer yields
    (sound value (Option.mem_toList.mpr member))) initial
  split at free
  · rename_i problem refused
    have error : problem.severity = .error := by
      unfold declarationProblem? at refused
      split at refused
      · cases refused
        rfl
      · split at refused
        · cases refused
          rfl
        · cases refused
    simp [error] at free
  · exact ⟨whole, fines⟩

theorem holds_check_return {info : StmtInfo} {value : Option Expr} (whole : info.faulty = false)
    (sound : ∀ expr ∈ value.toList, expr.Sound) (silent : (checkReturn frame info value).Silent) :
    (checkReturn frame info value).value.Holds fine := by
  unfold checkReturn at silent ⊢
  simp only [Checked.silent_bind, Checked.value_bind] at silent ⊢
  obtain ⟨given, fits⟩ := silent
  have fines := holds_option (fun value member => yields _
    (sound value (Option.mem_toList.mpr member))) given
  split at fits
  case h_1 same =>
    rw [same] at fines
    exact ⟨whole, fines⟩
  case h_2 => simp [Problem.severity] at fits
  case h_3 same =>
    rw [same] at fines
    simp only [Checked.silent_bind] at fits
    simp only [Checked.value_bind, (Expr.demand_silent (fun _ => rfl) fits.1).1]
    exact ⟨whole, fines⟩
  case h_4 =>
    split at fits
    · rename_i returns nothing
      rw [if_pos nothing]
      exact ⟨whole, by simp [Stmt.exprs]⟩
    · simp [Problem.severity] at fits
  case h_5 => exact ⟨whole, by simp [Stmt.exprs]⟩

omit yields in
theorem whole_check_jump {info : StmtInfo} {name : String} (whole : info.faulty = false)
    (silent : (checkJump frame info name).Silent) :
    (checkJump frame info name).value.isFaulty = false := by
  unfold checkJump at silent ⊢
  split at silent
  · simp [Problem.severity] at silent
  · dsimp only at silent ⊢
    split at silent
    · rename_i reach
      rw [if_pos reach]
      exact whole
    · simp [Problem.severity] at silent

omit yields in
theorem whole_check_state_change {info : StmtInfo} {name : String} (whole : info.faulty = false)
    (silent : (checkStateChange frame info name).Silent) :
    (checkStateChange frame info name).value.isFaulty = false := by
  unfold checkStateChange at silent ⊢
  split at silent
  · simp [Problem.severity] at silent
  · split <;> exact whole

theorem holds_check_conditions {rest : Alternatives}
    (sound : ∀ expr ∈ rest.conditions, expr.Sound)
    (silent : (checkAlternatives frame rest).Silent) :
    ∀ expr ∈ (checkAlternatives frame rest).value.conditions, ∀ node ∈ expr.nodes,
      fine node := by
  match rest with
  | .done => simp [checkAlternatives, Alternatives.conditions]
  | .elseIf _ condition _ _ rest =>
      simp only [checkAlternatives, Checked.silent_bind] at silent
      intro expr member
      simp only [checkAlternatives, Checked.value_bind, Checked.value_pure, Alternatives.conditions,
        List.mem_cons] at member
      rcases member with rfl | member
      · exact holds_condition yields (sound condition List.mem_cons_self) silent.1
      · exact holds_check_conditions (fun expr member => sound expr (List.mem_cons_of_mem _ member))
          silent.2.2.1 expr member
  | .otherwise _ _ _ => simp [checkAlternatives, Alternatives.conditions]

/-- A statement that is read and checked without an error is not at fault. That its label is the only
one of its name was seen before. -/
theorem holds_check_stmt {stmt : Stmt} (sound : stmt.Sound)
    (named : ∀ label ∈ stmt.labels (frame.scopes.headD 0), frame.label? label.name = some label)
    (silent : (checkStmt frame stmt).Silent) :
    (checkStmt frame stmt).value.Holds fine := by
  have whole := (Stmt.has_errors_iff.mp sound.clean).1
  have inner := fun (expr : Expr) (member : expr ∈ stmt.exprs) => sound.expr member
  cases stmt with
  | block scope body => exact ⟨rfl, by simp [checkStmt, Stmt.exprs]⟩
  | declare info decl => exact holds_check_declaration yields whole inner silent
  | perform info value =>
      simp only [checkStmt, Checked.silent_bind] at silent
      refine ⟨whole, ?_⟩
      intro expr member
      obtain rfl := List.mem_singleton.mp member
      exact yields _ (inner value List.mem_cons_self) silent.1
  | giveBack info value => exact holds_check_return yields whole inner silent
  | jump info name target =>
      obtain ⟨_, _, _, form⟩ := check_jump_form frame info name
      refine ⟨whole_check_jump whole silent, ?_⟩
      rw [checkStmt, form]
      simp [Stmt.exprs]
  | label info name =>
      refine ⟨?_, by simp [checkStmt, checkLabel, Stmt.exprs]⟩
      have first := named ⟨name, info.span, _⟩ List.mem_cons_self
      dsimp only at first
      simpa [checkStmt, checkLabel, Stmt.isFaulty, first, LabelPlace.start] using whole
  | changeState info name target =>
      obtain ⟨_, _, _, form⟩ := check_state_change_form frame info name
      refine ⟨whole_check_state_change whole silent, ?_⟩
      rw [checkStmt, form]
      simp [Stmt.exprs]
  | branch info first condition scope body rest =>
      simp only [checkStmt, Checked.silent_bind] at silent
      refine ⟨whole, ?_⟩
      intro expr member
      rcases List.mem_cons.mp member with rfl | member
      · exact holds_condition yields (inner condition List.mem_cons_self) silent.1
      · exact holds_check_conditions yields
          (fun expr member => inner expr (List.mem_cons_of_mem _ member)) silent.2.2.1 expr member
  | whileLoop info condition scope body =>
      simp only [checkStmt, Checked.silent_bind] at silent
      refine ⟨whole, ?_⟩
      intro expr member
      obtain rfl := List.mem_singleton.mp member
      exact holds_condition yields (inner condition List.mem_cons_self) silent.1
  | doLoop info scope body condition =>
      simp only [checkStmt, Checked.silent_bind] at silent
      refine ⟨whole, ?_⟩
      intro expr member
      obtain rfl := List.mem_singleton.mp member
      exact holds_condition yields (inner condition List.mem_cons_self) silent.2.1
  | forLoop info init condition afterthought scope body =>
      simp only [checkStmt, Checked.silent_bind] at silent
      obtain ⟨first, tested, again, _⟩ := silent
      simp only [Stmt.exprs, List.mem_append] at inner
      refine ⟨whole, ?_⟩
      intro expr member
      simp only [checkStmt, Checked.value_bind, Checked.value_pure, Stmt.exprs,
        List.mem_append] at member
      rcases member with (member | member) | member
      · exact holds_list yields (fun expr member => inner expr (.inl (.inl member))) first expr
          member
      · refine holds_option (fun value member => holds_condition yields
          (inner value (.inl (.inr (Option.mem_toList.mpr member))))) tested expr member
      · exact holds_list yields (fun expr member => inner expr (.inr member)) again expr member
  | empty info => exact ⟨whole, by simp [checkStmt, Stmt.exprs]⟩
  | broken span => cases whole

end

namespace CodeScope

/-- The variables declared directly in a scope, each with the number of the scope. -/
def held (scope : CodeScope) : List (Nat × Nat) :=
  (scope.body.filterMap Stmt.declaration?).map (·, scope.info.id)

/-- The variables declared directly in a scope or in a scope inside it. -/
def declarations (scope : CodeScope) : List (Nat × Nat) := scope.scopes.flatMap held

theorem mem_held {scope : CodeScope} {start id : Nat} :
    (start, id) ∈ scope.held ↔
      (∃ stmt ∈ scope.body, stmt.declaration? = some start) ∧ scope.info.id = id := by
  simp [held]

theorem scope_of_statement {root : CodeScope} {stmt : Stmt}
    (inside : stmt ∈ Stmt.listStatements root.body) : ∃ scope ∈ root.scopes, stmt ∈ scope.body := by
  obtain ⟨info, body⟩ := root
  induction body using Stmt.list_induction generalizing info with
  | nil => simp [Stmt.listStatements] at inside
  | cons head rest inner outer =>
      rcases Stmt.mem_list_statements_cons.mp inside with rfl | ⟨part, member, inside⟩ | inside
      · exact ⟨_, List.mem_cons_self, List.mem_cons_self⟩
      · obtain ⟨scope, scopeInside, stands⟩ := inner part member part.info inside
        exact ⟨scope, List.mem_cons_of_mem _ (Stmt.mem_list_scopes_cons.mpr
          (.inl ⟨part, member, List.mem_cons.mp scopeInside⟩)), stands⟩
      · obtain ⟨scope, scopeInside, stands⟩ := outer info inside
        rcases List.mem_cons.mp scopeInside with rfl | scopeInside
        · exact ⟨_, List.mem_cons_self, List.mem_cons_of_mem _ stands⟩
        · exact ⟨scope, List.mem_cons_of_mem _ (Stmt.mem_list_scopes_cons.mpr
            (.inr scopeInside)), stands⟩

theorem held_subset {root scope : CodeScope} (inside : scope ∈ root.scopes) :
    scope.held ⊆ root.declarations :=
  fun _ member => List.mem_flatMap.mpr ⟨scope, inside, member⟩

end CodeScope

/-- The labels of a body are found by their names. -/
def Frame.Labels (frame : Frame) (body : List Stmt) : Prop :=
  ∀ label ∈ Stmt.listLabels (frame.scopes.headD 0) body, frame.label? label.name = some label

/-- What is seen in front of a statement is seen in its scopes and by the statements behind it, and
what is checked there consists of nodes that are fine. -/
structure Passes (fine : Expr → Prop) (sees : Frame → List Stmt → Prop) : Prop where
  yields : ∀ {frame body}, sees frame body → frame.view.Yields fine
  part : ∀ {frame stmt rest}, sees frame (stmt :: rest) →
    ∀ part ∈ stmt.parts, sees (frame.enter part.info) part.body
  tail : ∀ {frame stmt rest}, sees frame (stmt :: rest) →
    sees (frame.behind (checkStmt frame stmt).value) rest

/-- Whatever is seen is declared, and so is what the statements of a body declare. -/
structure Frame.Suits (library : Library) (around : Surroundings) (frame : Frame)
    (body : List Stmt) : Prop where
  library : frame.view.library = library
  view : frame.view.Within around
  own : ∀ stmt ∈ body, ∀ start ∈ stmt.declaration?, (start, frame.scopes.headD 0) ∈ around.locals
  inner : ∀ scope ∈ Stmt.listScopes body, scope.held ⊆ around.locals

theorem Stmt.labels_of_part {id : Nat} {stmt : Stmt} {part : CodeScope}
    (member : part ∈ stmt.parts) : listLabels part.info.id part.body ⊆ stmt.labels id := by
  cases stmt with
  | branch info first condition scope body rest =>
      rw [labels, rest.labels_eq]
      intro label inside
      rcases List.mem_cons.mp member with rfl | member
      · exact List.mem_append_left _ inside
      · exact List.mem_append_right _ (List.mem_flatMap.mpr ⟨part, member, inside⟩)
  | _ => simp_all [labels, parts]

namespace Frame

@[simp] theorem library_behind (frame : Frame) (stmt : Stmt) :
    (frame.behind stmt).view.library = frame.view.library := by
  unfold behind
  split
  · split <;> rfl
  · rfl

theorem within_behind {frame : Frame} {around : Surroundings} {stmt : Stmt}
    (within : frame.view.Within around)
    (declared : ∀ start ∈ stmt.declaration?, (start, frame.scopes.headD 0) ∈ around.locals) :
    (frame.behind stmt).view.Within around := by
  unfold behind
  split
  · split
    · exact within
    · refine ⟨within.library, ?_, within.functions⟩
      intro found member
      rcases List.mem_cons.mp member with rfl | member
      · exact declared _ rfl
      · exact within.names found member
  · exact within

theorem Labels.part {frame : Frame} {stmt : Stmt} {rest : List Stmt}
    (labels : frame.Labels (stmt :: rest)) {part : CodeScope} (member : part ∈ stmt.parts) :
    (frame.enter part.info).Labels part.body :=
  fun label inside => labels label (List.mem_append_left _ (Stmt.labels_of_part member inside))

theorem Labels.tail {frame : Frame} {stmt : Stmt} {rest : List Stmt}
    (labels : frame.Labels (stmt :: rest)) :
    (frame.behind (checkStmt frame stmt).value).Labels rest := by
  intro label inside
  rw [scopes_behind] at inside
  rw [label?, labels_behind]
  exact labels label (List.mem_append_right _ inside)

theorem Suits.passes (library : Library) (around : Surroundings) :
    Passes (·.Ready library around) (Suits library around) where
  yields := by
    rintro frame body ⟨rfl, within, _, _⟩ expr sound silent
    exact Expr.ready_check within sound silent
  part := by
    intro frame stmt rest suits part member
    have own := suits.inner part (Stmt.mem_list_scopes_cons.mpr (.inl ⟨part, member, .inl rfl⟩))
    refine ⟨suits.library, suits.view, ?_, ?_⟩
    · intro found inside start declares
      exact own (CodeScope.mem_held.mpr ⟨⟨found, inside, declares⟩, rfl⟩)
    · intro scope inside
      exact suits.inner scope
        (Stmt.mem_list_scopes_cons.mpr (.inl ⟨part, member, .inr inside⟩))
  tail := by
    intro frame stmt rest suits
    refine ⟨?_, within_behind suits.view ?_, ?_, ?_⟩
    · rw [library_behind, suits.library]
    · rw [(Stmt.keeps_check frame stmt).declaration]
      exact suits.own stmt List.mem_cons_self
    · rw [scopes_behind]
      exact fun found inside => suits.own found (List.mem_cons_of_mem _ inside)
    · exact fun scope inside => suits.inner scope (Stmt.mem_list_scopes_cons.mpr (.inr inside))

end Frame

/-- Nothing is wrong with a statement that is read and checked without an error. -/
theorem holds_check_stmts {fine : Expr → Prop} {sees : Frame → List Stmt → Prop}
    (passes : Passes fine sees) {frame : Frame} {body : List Stmt} (seen : sees frame body)
    (labels : frame.Labels body) (sound : Stmt.AllSound body)
    (silent : (checkStmts frame body).Silent) :
    ∀ stmt ∈ Stmt.listStatements (checkStmts frame body).value, stmt.Holds fine := by
  induction body using Stmt.list_induction generalizing frame with
  | nil => simp [checkStmts, Stmt.listStatements]
  | cons stmt rest inner outer =>
      simp only [checkStmts, Checked.silent_bind] at silent
      obtain ⟨head, others, _⟩ := silent
      intro found inside
      rw [Stmt.value_check_cons] at inside
      rcases Stmt.mem_list_statements_cons.mp inside with rfl | ⟨part, member, inside⟩ | inside
      · exact holds_check_stmt (passes.yields seen) sound.head
          (fun label member => labels label (List.mem_append_left _ member)) head
      · rw [Stmt.parts_check] at member
        obtain ⟨source, sourceMember, rfl⟩ := List.mem_map.mp member
        exact inner source sourceMember (passes.part seen source sourceMember)
          (labels.part sourceMember) (sound.head.part sourceMember)
          (Stmt.silent_parts head source sourceMember) found inside
      · exact outer (passes.tail seen) labels.tail sound.tail others found inside

theorem declare_labels_silent {declared labels : List LabelPlace}
    (silent : (declareLabels declared labels).Silent)
    (distinct : (declared.map (·.name)).Nodup) :
    (declareLabels declared labels).value = declared ++ labels ∧
      ((declared ++ labels).map (·.name)).Nodup := by
  induction labels generalizing declared with
  | nil => simpa [declareLabels] using distinct
  | cons label labels induction =>
      unfold declareLabels at silent ⊢
      split at silent
      · simp [report, Checked.Silent, Diagnostic.isError, Problem.severity] at silent
      · rename_i first
        rw [if_neg first]
        have fresh : label.name ∉ declared.map (·.name) := by
          simpa using first
        have extended : ((declared ++ [label]).map (·.name)).Nodup := by
          rw [List.map_append, List.nodup_append]
          refine ⟨distinct, by simp, ?_⟩
          intro name inside other same
          obtain rfl : other = label.name := by simpa using same
          exact fun equal => fresh (equal ▸ inside)
        simpa using induction silent extended

theorem find_label {labels : List LabelPlace} (distinct : (labels.map (·.name)).Nodup)
    {label : LabelPlace} (member : label ∈ labels) :
    labels.find? (·.name == label.name) = some label := by
  obtain ⟨found, located⟩ : ∃ found, labels.find? (·.name == label.name) = some found := by
    rw [← Option.isSome_iff_exists, List.find?_isSome]
    exact ⟨label, member, by simp⟩
  have same : found.name = label.name := by simpa using List.find?_some located
  rw [located, List.inj_on_of_nodup_map distinct (List.mem_of_find?_eq_some located) member same]

namespace CodeScope

theorem declarations_eq (scope : CodeScope) :
    scope.declarations = scope.held ++ (Stmt.listScopes scope.body).flatMap held := by
  rw [declarations, scopes, List.flatMap_cons]

theorem held_of_declarations {info : ScopeInfo} {first second : List Stmt}
    (same : first.map Stmt.declaration? = second.map Stmt.declaration?) :
    held ⟨info, first⟩ = held ⟨info, second⟩ := by
  have starts : first.filterMap Stmt.declaration? = second.filterMap Stmt.declaration? := by
    have joined := congrArg (List.filterMap id) same
    simpa [List.filterMap_map] using joined
  simp only [held, starts]

end CodeScope

namespace Stmt

theorem list_scopes_held_cons (stmt : Stmt) (rest : List Stmt) :
    (listScopes (stmt :: rest)).flatMap CodeScope.held =
      stmt.parts.flatMap CodeScope.declarations ++
        (listScopes rest).flatMap CodeScope.held := by
  rw [listScopes, scopes_eq, List.flatMap_append, List.flatMap_assoc]
  rfl

theorem declarations_check (frame : Frame) (body : List Stmt) :
    (checkStmts frame body).value.map declaration? = body.map declaration? := by
  induction body generalizing frame with
  | nil => rfl
  | cons stmt rest induction =>
      rw [value_check_cons, List.map_cons, List.map_cons, (keeps_check frame stmt).declaration,
        induction]

theorem held_check (frame : Frame) (body : List Stmt) :
    (listScopes (checkStmts frame body).value).flatMap CodeScope.held =
      (listScopes body).flatMap CodeScope.held := by
  induction body using Stmt.list_induction generalizing frame with
  | nil => rfl
  | cons stmt rest inner outer =>
      have parts : stmt.parts.flatMap (fun part => (part.checked frame).declarations) =
          stmt.parts.flatMap CodeScope.declarations := by
        refine List.flatMap_congr fun part member => ?_
        rw [CodeScope.declarations_eq, CodeScope.declarations_eq, CodeScope.checked,
          CodeScope.held_of_declarations (declarations_check _ part.body), inner part member]
      rw [value_check_cons, list_scopes_held_cons, list_scopes_held_cons, parts_check,
        List.flatMap_map, parts, outer]

theorem declarations_marked (reach : Reachability) (body : List Stmt) :
    (listMarked reach body).map declaration? = body.map declaration? := by
  induction body with
  | nil => rfl
  | cons stmt rest induction => simp [listMarked, induction]

theorem held_marked (reach : Reachability) (body : List Stmt) :
    (listScopes (listMarked reach body)).flatMap CodeScope.held =
      (listScopes body).flatMap CodeScope.held := by
  induction body using Stmt.list_induction with
  | nil => rfl
  | cons stmt rest inner outer =>
      have parts : stmt.parts.flatMap (fun part => (part.marked reach).declarations) =
          stmt.parts.flatMap CodeScope.declarations := by
        refine List.flatMap_congr fun part member => ?_
        rw [CodeScope.declarations_eq, CodeScope.declarations_eq, CodeScope.marked,
          CodeScope.held_of_declarations (declarations_marked reach part.body), inner part member]
        rfl
      rw [listMarked, list_scopes_held_cons, list_scopes_held_cons, parts_marked,
        List.flatMap_map, parts, outer]

theorem exprs_marked (reach : Reachability) (stmt : Stmt) :
    (stmt.marked reach).exprs = stmt.exprs := by
  cases stmt <;> simp [marked, exprs]

theorem faulty_marked (reach : Reachability) (stmt : Stmt) :
    (stmt.marked reach).isFaulty = stmt.isFaulty := by
  cases stmt <;> rfl

theorem Holds.of_marked {fine : Expr → Prop} {stmt source : Stmt} (holds : source.Holds fine)
    (same : source.marked .live = stmt.marked .live) : stmt.Holds fine where
  whole := by rw [← faulty_marked .live, ← same, faulty_marked, holds.whole]
  exprs := by
    rw [← exprs_marked .live, ← same, exprs_marked]
    exact holds.exprs

end Stmt

namespace CodeScope

theorem declarations_marked (info : ScopeInfo) (reach : Reachability) (body : List Stmt) :
    declarations ⟨info, Stmt.listMarked reach body⟩ = declarations ⟨info, body⟩ := by
  rw [declarations_eq, declarations_eq, Stmt.held_marked,
    held_of_declarations (Stmt.declarations_marked reach body)]

theorem declarations_settle (info : ScopeInfo) (body : List Stmt) :
    declarations ⟨info, (settleBody body).1⟩ = declarations ⟨info, body⟩ := by
  rw [← declarations_marked info .live (settleBody body).1, settleBody, Stmt.list_marked_settle,
    declarations_marked]

theorem declarations_check (info : ScopeInfo) (frame : Frame) (body : List Stmt) :
    declarations ⟨info, (checkStmts frame body).value⟩ = declarations ⟨info, body⟩ := by
  rw [declarations_eq, declarations_eq, Stmt.held_check,
    held_of_declarations (Stmt.declarations_check frame body)]

end CodeScope

theorem report_at_silent {span : Span} {problem? : Option Problem}
    (error : ∀ problem ∈ problem?, problem.severity = .error)
    (silent : (reportAt span problem?).Silent) : problem? = none := by
  cases found : problem? with
  | none => rfl
  | some problem =>
      rw [found] at silent
      simp [reportAt, Checked.Silent, Diagnostic.isError, error problem found] at silent

/-- What is seen of a parameter. -/
def ParameterDecl.visible (decl : ParameterDecl) : Visible :=
  ⟨decl.name, decl.type, .parameter decl.start⟩

theorem declare_parameters_silent {library : Library} {declared : List Visible}
    {members : List ParameterDecl}
    (silent : (declareParameters library declared members).Silent) :
    (declareParameters library declared members).value =
      (members, declared ++ members.map ParameterDecl.visible) := by
  induction members generalizing declared with
  | nil => simp [declareParameters]
  | cons decl members induction =>
      simp only [declareParameters, Checked.silent_bind, Checked.value_bind,
        Checked.value_pure] at silent ⊢
      have free := report_at_silent (by grind [Problem.severity]) silent.1
      simp only [free, reportAt, Checked.value_pure, Bool.false_eq_true, if_false, Bool.or_false]
        at silent ⊢
      rw [induction silent.2.1]
      simp [ParameterDecl.visible]

/-- Where checking a body starts. -/
def Outlook.frame (outlook : Outlook) (owner : Owner) (parameters : ParameterList)
    (scope : ScopeInfo) (labels : List LabelPlace) : Frame where
  view := { outlook.view with locals := parameters.members.map ParameterDecl.visible }
  states := outlook.states
  labels
  owner
  scopes := [scope.id]

/-- Nothing is wrong with the body of a function or handler that is read and checked without an
error. -/
theorem check_body_holds {outlook : Outlook} {owner : Owner} {parameters : ParameterList}
    {scope : ScopeInfo} {body : List Stmt} {fine : Expr → Prop} {sees : Frame → List Stmt → Prop}
    (passes : Passes fine sees)
    (seen : ∀ labels, sees (outlook.frame owner parameters scope labels) body)
    (sound : Stmt.AllSound body) (silent : (checkBody outlook owner parameters scope body).Silent) :
    (checkBody outlook owner parameters scope body).value.1 = parameters ∧
      ∀ stmt ∈ Stmt.listStatements (checkBody outlook owner parameters scope body).value.2,
        stmt.Holds fine := by
  simp only [checkBody, Checked.silent_bind] at silent
  obtain ⟨labelled, declared, ⟨checked, _⟩, _⟩ := silent
  have labels := declare_labels_silent labelled (by simp)
  have parameterNames := declare_parameters_silent declared
  simp only [List.nil_append] at labels parameterNames
  simp only [checkBody, Checked.value_bind, Checked.value_pure, value_close_scope]
  refine ⟨by rw [parameterNames], ?_⟩
  intro stmt inside
  obtain ⟨source, sourceInside, same⟩ := Stmt.settle_statement inside
  refine Stmt.Holds.of_marked ?_ same
  simp only [labels, parameterNames] at checked sourceInside
  refine holds_check_stmts passes (seen _) ?_ sound checked source sourceInside
  intro label member
  exact find_label labels.2 member

theorem check_body_declarations (outlook : Outlook) (owner : Owner) (parameters : ParameterList)
    (scope : ScopeInfo) (body : List Stmt) :
    CodeScope.declarations ⟨scope, (checkBody outlook owner parameters scope body).value.2⟩ =
      CodeScope.declarations ⟨scope, body⟩ := by
  simp only [checkBody, Checked.value_bind, Checked.value_pure, value_close_scope]
  rw [CodeScope.declarations_settle, CodeScope.declarations_check]

end Lsl
