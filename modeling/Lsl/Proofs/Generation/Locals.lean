import Lsl.Proofs.Checking.Inversion
import Lsl.Proofs.Checking.Preservation
import Lsl.Proofs.Checking.Resolution
import Lsl.Proofs.Checking.Spelling
import Lsl.Proofs.Generation.Naming

/-!
Local variables of accepted sources in generated code. No scope declares a name twice and no two
scopes have one number, so that no two locals are written alike. A name in the code of a body is
written as the local or parameter that it is bound to.
-/

set_option autoImplicit false

namespace Lsl

namespace CodeScope

theorem mem_scopes_of_part {scope part : CodeScope} {stmt : Stmt} (member : stmt ∈ scope.body)
    (opens : part ∈ stmt.parts) {found : CodeScope} (inside : found ∈ part.scopes) :
    found ∈ scope.scopes := by
  obtain ⟨front, back, split⟩ := List.append_of_mem member
  have own : found ∈ Stmt.listScopes (stmt :: back) :=
    Stmt.mem_list_scopes_cons.mpr (.inl ⟨part, opens, List.mem_cons.mp inside⟩)
  refine List.mem_cons_of_mem _ ?_
  rw [split]
  clear split member
  induction front with
  | nil => exact own
  | cons head front induction => exact List.mem_append_right _ induction

end CodeScope

namespace Spot

theorem level_scope {id : Nat} {body back : List Stmt} {levels : List Level}
    (spot : Spot id body levels back) {root : CodeScope} (numbered : root.info.id = id)
    (stands : root.body = body) {level : Level} (around : level ∈ levels) :
    ∃ scope ∈ root.scopes, scope.info.id = level.id ∧ level.front ⊆ scope.body := by
  induction spot generalizing root with
  | here id front back =>
      obtain rfl := List.mem_singleton.mp around
      exact ⟨root, List.mem_cons_self, numbered, stands ▸ List.subset_append_left _ _⟩
  | @inside id front stmt rest part levels back member inner induction =>
      rcases List.mem_append.mp around with around | around
      · obtain ⟨scope, among, same, made⟩ := induction rfl rfl around
        have own : stmt ∈ root.body := stands ▸ List.mem_append_right _ List.mem_cons_self
        exact ⟨scope, CodeScope.mem_scopes_of_part own member among, same, made⟩
      · obtain rfl := List.mem_singleton.mp around
        exact ⟨root, List.mem_cons_self, numbered, stands ▸ List.subset_append_left _ _⟩

theorem of_scope (id : Nat) {body : List Stmt} {scope : CodeScope}
    (inside : scope ∈ Stmt.listScopes body) :
    ∃ levels, Spot id body (⟨scope.info.id, scope.body⟩ :: levels) [] := by
  suffices general : ∀ front, ∃ levels,
      Spot id (front ++ body) (⟨scope.info.id, scope.body⟩ :: levels) [] by
    exact general []
  intro front
  induction body using Stmt.list_induction generalizing id front with
  | nil => cases inside
  | cons head rest inner outer =>
      rcases Stmt.mem_list_scopes_cons.mp inside with ⟨part, member, rfl | inside⟩ | inside
      · have end_ : Spot scope.info.id scope.body [⟨scope.info.id, scope.body⟩] [] := by
          have whole := Spot.here scope.info.id scope.body []
          rwa [List.append_nil] at whole
        exact ⟨_, .inside member end_⟩
      · obtain ⟨levels, spot⟩ := inner part member part.info.id inside []
        exact ⟨_, .inside member spot⟩
      · have later := outer id inside (front ++ [head])
        rwa [List.append_assoc] at later

end Spot

theorem CodeScope.declares_names (scope : CodeScope) :
    scope.declares.map (·.decl.name) =
      ((Level.visible ⟨scope.info.id, scope.body⟩).map (·.name)).reverse := by
  rw [declares, Level.visible, List.map_reverse, List.reverse_reverse, List.map_filterMap,
    List.map_filterMap]
  refine List.filterMap_congr fun stmt _ => ?_
  cases stmt <;> rfl

theorem CodeScope.locals_starts (body : CodeScope) :
    (body.locals.map LocalDecl.start).Perm
      ((Stmt.listStatements body.body).filterMap Stmt.declaration?) := by
  have each (scope : CodeScope) :
      scope.declares.map LocalDecl.start = scope.body.filterMap Stmt.declaration? := by
    rw [declares, List.map_filterMap]
    refine List.filterMap_congr fun stmt _ => ?_
    cases stmt <;> rfl
  rw [locals, List.map_flatMap, funext each, ← List.filterMap_flatMap]
  exact body.scopes_perm.filterMap _

namespace Routine

/-- Where the parameters and the locals of a function or handler start. -/
def variableStarts (routine : Routine) : List Nat :=
  routine.parameters.members.map ParameterDecl.start ++
    routine.scope.locals.map LocalDecl.start

theorem variable_starts_subperm (routine : Routine) :
    routine.variableStarts.Subperm (routine.referents.map (·.start)) := by
  have locals : ((Stmt.listStatements routine.scope.body).filterMap Stmt.declaration?).Sublist
      ((Stmt.listReferents routine.scope.body).map (·.start)) := by
    rw [Stmt.listReferents, List.map_filterMap, List.filterMap_eq_flatMap_toList,
      List.filterMap_eq_flatMap_toList]
    refine List.Sublist.flatMap_right _ fun stmt _ => ?_
    rw [Stmt.referent_eq]
    cases stmt.declaration? with
    | none => exact List.nil_sublist _
    | some start => exact List.Sublist.refl _
  have parameters : (routine.parameters.members.map ParameterDecl.referent).map (·.start) =
      routine.parameters.members.map ParameterDecl.start := by
    rw [List.map_map]
    rfl
  rw [referents, List.map_append, parameters, variableStarts]
  exact (List.Subperm.refl _).append
    (routine.scope.locals_starts.subperm.trans locals.subperm)

end Routine

theorem nodup_of_subperm {α : Type} {few many : List α} (inside : few.Subperm many)
    (distinct : many.Nodup) : few.Nodup := by
  obtain ⟨same, perm, part⟩ := inside
  exact perm.nodup_iff.mp (distinct.sublist part)

/-- Names in an expression that are bound to a local or to a parameter are written as the one that
starts where they are bound. -/
def Expr.SpelledIn (manner : Manner) (parameters : List ParameterDecl) (locals : List LocalDecl)
    (expr : Expr) : Prop :=
  ∀ info name binding, .reference info name binding ∈ expr.nodes →
    match binding with
    | .inScope start scope => ∃ place ∈ locals, place.start = start ∧ place.scope = scope ∧
        ∀ around, (Expr.reference info name binding).code manner around = .plain place.written
    | .parameter start => ∃ decl ∈ parameters, decl.start = start ∧
        ∀ around, (Expr.reference info name binding).code manner around =
          .plain (parameterName decl.name)
    | _ => True

/-- Parameters and locals of a function or handler start at different places, and what is bound to
one of them is written with its name. -/
structure Routine.Spelled (manner : Manner) (routine : Routine) : Prop where
  distinct : routine.variableStarts.Nodup
  spelled : ∀ expr ∈ Stmt.bodyExprs routine.scope.body,
    expr.SpelledIn manner routine.parameters.members routine.scope.locals

/-- A method has the parameters of a function or handler, declares locals of it, and gives no two
parameters or locals one name. -/
structure Method.Names (manner : Manner) (routine : Routine) (method : Method) : Prop where
  parameters : method.parameters.map (·.2) =
    routine.parameters.members.map fun decl => parameterName decl.name
  locals : (CodeStmt.listDeclared method.body).Subperm
    (routine.scope.locals.flatMap (LocalDecl.declared manner))
  distinct : (method.parameters.map (·.2) ++ CodeStmt.listDeclared method.body).Nodup

theorem CodeScope.NamedIn.spelled {context : Context} {body : CodeScope}
    (named : body.NamedIn context) (manner : Manner) :
    ∀ expr ∈ Stmt.bodyExprs body.body, expr.SpelledIn manner context.parameters body.locals := by
  intro expr member info name binding inside
  obtain ⟨stmt, among, own⟩ := List.mem_flatMap.mp member
  obtain ⟨levels, back, spot⟩ := named.placed stmt among
  obtain ⟨type, -, denotes, -⟩ := named.named levels stmt back spot expr own info name binding inside
  cases denotes with
  | @inLevel near far level statement decl around declared same nearest =>
      have stands : level ∈ near ++ level :: far := List.mem_append_right _ List.mem_cons_self
      rw [← around] at stands
      obtain ⟨scope, known, numbered, made⟩ := spot.level_scope rfl rfl stands
      refine ⟨⟨level.id, statement, decl⟩, List.mem_flatMap.mpr ⟨scope, known, ?_⟩, rfl, rfl, ?_⟩
      · exact CodeScope.mem_declares.mpr ⟨made declared, numbered.symm⟩
      · intro place
        rw [LocalDecl.written, same]
        rfl
  | @parameter decl unscoped declared same =>
      refine ⟨decl, declared, rfl, fun place => ?_⟩
      rw [same]
      rfl
  | global => trivial
  | constant => trivial

theorem scope_ids_distinct (library : Library) (source : String) :
    (checkSource library source).value.scopeIds.Nodup := by
  rw [← Script.scope_ids_plain, plain_check_source, Script.scope_ids_plain]
  exact (parse_numbered (tokenize source)).distinct

namespace Accepted

variable {library : Library} {source : String} (accepted : Accepted library source)

include accepted

theorem routine_passed {routine : Routine}
    (member : routine ∈ (checkSource library source).value.routines) :
    ∃ owner, routine.scope.Passed ((parse (tokenize source)).1.outlook library) owner
      routine.parameters := by
  rcases List.mem_append.mp member with member | member
  · obtain ⟨decl, known, rfl⟩ := List.mem_map.mp member
    exact ⟨_, accepted.function_passed known⟩
  · obtain ⟨state, known, own⟩ := List.mem_flatMap.mp member
    obtain ⟨decl, handler, rfl⟩ := List.mem_map.mp own
    exact ⟨_, accepted.handler_passed known handler⟩

theorem scope_declares_distinct {scope : CodeScope}
    (member : scope ∈ (checkSource library source).value.scopes) :
    (scope.declares.map (·.decl.name)).Nodup := by
  obtain ⟨body, inside, within⟩ := List.mem_flatMap.mp member
  obtain ⟨owner, parameters, passed⟩ := accepted.body_passed inside
  obtain ⟨levels, spot⟩ : ∃ levels, Spot body.info.id body.body
      (⟨scope.info.id, scope.body⟩ :: levels) [] := by
    rcases List.mem_cons.mp within with rfl | within
    · have whole := Spot.here scope.info.id scope.body []
      rw [List.append_nil] at whole
      exact ⟨[], whole⟩
    · exact Spot.of_scope _ within
  have distinct := (accepted.spot_context passed spot).1.locals
  rw [Context.locals, List.flatMap_cons, List.append_assoc, List.map_append] at distinct
  rw [CodeScope.declares_names]
  exact List.nodup_reverse.mpr (List.nodup_append.mp distinct).1

theorem written_distinct :
    ((checkSource library source).value.locals.map LocalDecl.written).Nodup := by
  have keys := Script.locals_distinct (scope_ids_distinct library source)
    fun _ member => accepted.scope_declares_distinct member
  rw [List.Nodup, List.pairwise_map] at keys ⊢
  exact keys.imp fun apart same => apart (LocalDecl.key_of_written same)

theorem bound : (checkSource library source).value.Bound := by
  obtain ⟨declared, mentioned, unbound⟩ := parse_finds source
  rw [accepted.checked]
  exact check_declarations_bound library declared mentioned unbound
    fun body inside => (parse_bodies inside).1.starts.imp Nat.ne_of_lt

theorem routine_spelled {routine : Routine}
    (member : routine ∈ (checkSource library source).value.routines) (manner : Manner) :
    routine.Spelled manner where
  distinct := by
    have declared := accepted.bound.declared
    rw [Script.referents, List.map_append, List.map_flatMap] at declared
    have own := (List.nodup_flatMap.mp (List.nodup_append.mp declared).2.1).1 routine member
    exact nodup_of_subperm routine.variable_starts_subperm own
  spelled := by
    obtain ⟨owner, passed⟩ := accepted.routine_passed member
    exact (accepted.body_named passed).spelled manner

theorem routine_declared_distinct {routine : Routine}
    (member : routine ∈ (checkSource library source).value.routines) (manner : Manner) :
    (routine.parameters.members.map (fun decl => parameterName decl.name) ++
      routine.scope.locals.flatMap (LocalDecl.declared manner)).Nodup := by
  have locals : (routine.scope.locals.flatMap (LocalDecl.declared manner)).Sublist
      (routine.scope.locals.map LocalDecl.written) := by
    rw [List.map_eq_flatMap]
    exact List.Sublist.flatMap_right _ fun place _ => place.declared_sublist manner
  have inside : (routine.scope.locals.map LocalDecl.written).Sublist
      ((checkSource library source).value.locals.map LocalDecl.written) := by
    have body : routine.scope ∈ (checkSource library source).value.bodies := by
      rw [Script.bodies_eq]
      exact List.mem_map_of_mem member
    obtain ⟨front, back, split⟩ := List.append_of_mem body
    rw [Script.locals, split, List.flatMap_append, List.flatMap_cons]
    exact ((List.sublist_append_left _ _).trans (List.sublist_append_right _ _)).map _
  refine List.nodup_append.mpr ⟨?_, accepted.written_distinct.sublist (locals.trans inside), ?_⟩
  · obtain ⟨owner, passed⟩ := accepted.routine_passed member
    have spot := Spot.here routine.scope.info.id [] routine.scope.body
    have distinct := (accepted.spot_context passed spot).1.locals
    rw [Context.locals, List.map_append, List.map_map] at distinct
    have names : (routine.parameters.members.map ParameterDecl.name).Nodup :=
      (List.nodup_append.mp distinct).2.1
    rw [List.Nodup, List.pairwise_map] at names ⊢
    exact names.imp fun apart same => apart (parameter_name_inj same)
  · intro name parameter other among
    obtain ⟨decl, _, rfl⟩ := List.mem_map.mp parameter
    obtain ⟨place, _, rfl⟩ := List.mem_map.mp (locals.subset among)
    exact parameter_ne_local decl.name place.scope place.decl.name

theorem method_names (settings : Settings) {method : Method}
    (member : method ∈ ((checkSource library source).value.program library settings).methods) :
    ∃ routine ∈ (checkSource library source).value.routines,
      method.Names ⟨library, settings, (checkSource library source).value.uses⟩ routine := by
  obtain ⟨routine, known, parameters, inHandler, body⟩ :
      ∃ routine ∈ (checkSource library source).value.routines,
        method.parameters = routine.parameters.code
            ⟨library, settings, (checkSource library source).value.uses⟩ ∧
          ∃ inHandler, method.body = routine.scope.code
            ⟨library, settings, (checkSource library source).value.uses⟩ inHandler := by
    rcases Script.mem_methods member with ⟨decl, known, rfl⟩ | ⟨state, known, decl, handler, rfl⟩
    · exact ⟨decl.routine, List.mem_append_left _ (List.mem_map_of_mem known), rfl, false, rfl⟩
    · refine ⟨decl.routine, List.mem_append_right _ (List.mem_flatMap.mpr ⟨state, known, ?_⟩), rfl,
        true, rfl⟩
      exact List.mem_map_of_mem handler
  have names : method.parameters.map (·.2) =
      routine.parameters.members.map fun decl => parameterName decl.name := by
    rw [parameters, ParameterList.code_names]
  have locals := routine.scope.declared_subperm
    ⟨library, settings, (checkSource library source).value.uses⟩ inHandler
  rw [← body] at locals
  refine ⟨routine, known, names, locals, ?_⟩
  rw [names]
  exact nodup_of_subperm ((List.Subperm.refl _).append locals)
    (accepted.routine_declared_distinct known _)

theorem initializer_spelled {global : GlobalDecl}
    (member : global ∈ (checkSource library source).value.globals) {value : Expr}
    (given : value ∈ global.decl.initializer) (manner : Manner) : value.SpelledIn manner [] [] := by
  obtain ⟨front, back, split⟩ := List.append_of_mem member
  obtain ⟨distinct, forthcoming, typed⟩ := accepted.initializer_context split given
  intro info name binding inside
  obtain ⟨type, -, denotes, -⟩ :=
    Expr.named_of_typed distinct (fun node inside => (typed node inside).2) info name binding inside
  cases denotes with
  | inLevel around => simp [Script.context] at around
  | parameter unscoped declared => simp [Script.context] at declared
  | global => trivial
  | constant => trivial

end Accepted

end Lsl
