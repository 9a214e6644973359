import Lsl.Proofs.Checking.Remarks

/-!
What the names of a checked script are bound to. That holds whatever is wrong with the script, as long
as its text is read without an error: all that is bound is bound to a declaration, and what a function
or handler declares is referred to in it alone. When a scope is closed all uses of what is declared in
it are known, since what is outside of it cannot refer to that.
-/

set_option autoImplicit false

namespace Lsl

theorem Use.is_used_iff {uses : List Use} {start : Nat} :
    Use.isUsed uses start = true ↔ ∃ use ∈ uses, use.declaration = start := by
  simp [Use.isUsed]

theorem Use.places_eq_nil {uses : List Use} {start : Nat} :
    Use.placesOf uses start = [] ↔ Use.isUsed uses start = false := by
  simp [Use.placesOf, Use.isUsed]

theorem Mention.used_iff {uses : List Use} {mentions : List Mention}
    (told : uses.Perm (mentions.filterMap use?)) {start : Nat} :
    Use.isUsed uses start = true ↔
      ∃ mention ∈ mentions, ∃ referent ∈ mention.referent, referent.start = start := by
  simp only [Use.is_used_iff, told.mem_iff, List.mem_filterMap, use?, Option.map_eq_some_iff]
  constructor
  · rintro ⟨use, ⟨mention, member, referent, refers, rfl⟩, same⟩
    exact ⟨mention, member, referent, refers, same⟩
  · rintro ⟨mention, member, referent, refers, same⟩
    exact ⟨_, ⟨mention, member, referent, refers, rfl⟩, same⟩

namespace Stmt

theorem list_scopes_perm (body : List Stmt) :
    (body ++ (listScopes body).flatMap (·.body)).Perm (listStatements body) := by
  induction body using Stmt.list_induction with
  | nil => exact .refl _
  | cons stmt rest inner outer =>
      have parts : (stmt.scopes.flatMap (·.body)).Perm
          (stmt.parts.flatMap fun part => listStatements part.body) := by
        rw [scopes_eq, List.flatMap_assoc]
        exact .flatMap_left _ inner
      rw [listScopes, List.flatMap_append, listStatements, statements_eq]
      exact .cons stmt ((List.perm_append_comm_assoc rest _ _).trans (parts.append outer))

theorem declaration_of_declared {stmt : Stmt} {found : String × Span}
    (declares : stmt.declared? = some found) :
    stmt.declaration? = some found.2.start.offset := by
  cases stmt with
  | declare info decl =>
      simp only [declared?] at declares
      split at declares
      · cases declares
      · obtain rfl := Option.some.inj declares
        rfl
  | _ => cases declares

end Stmt

namespace CodeScope

variable {body scope : CodeScope}

theorem scopes_perm (body : CodeScope) :
    (body.scopes.flatMap (·.body)).Perm (Stmt.listStatements body.body) := by
  rw [scopes, List.flatMap_cons]
  exact Stmt.list_scopes_perm body.body

theorem statements_of_scope (inside : scope ∈ body.scopes) :
    Stmt.listStatements scope.body ⊆ Stmt.listStatements body.body := by
  rcases List.mem_cons.mp inside with rfl | inside
  · exact List.Subset.refl _
  · exact (Stmt.list_statements_sublist inside).subset

theorem mentions_of_scope (inside : scope ∈ body.scopes) :
    Stmt.listMentions scope.body ⊆ Stmt.listMentions body.body := by
  intro mention mentioned
  obtain ⟨stmt, member, own⟩ := List.mem_flatMap.mp mentioned
  exact List.mem_flatMap.mpr ⟨stmt, statements_of_scope inside member, own⟩

theorem behind_of_split {front back : List Stmt} {declaration : Stmt} (inside : scope ∈ body.scopes)
    (split : scope.body = front ++ declaration :: back) :
    Behind declaration back body.body := by
  have direct : Behind declaration back scope.body := split ▸ Behind.of_append front
  rcases List.mem_cons.mp inside with rfl | inside
  · exact direct
  · exact direct.of_scope inside

end CodeScope

/-- What is known of the bindings of a checked script, whatever is wrong with it. -/
structure Script.Bound (script : Script) : Prop where
  recorded : script.uses = script.boundUses
  declared : (script.referents.map (·.start)).Nodup
  mentioned : (script.mentions.map (·.place)).Nodup
  closed : ∀ mention ∈ script.mentions, ∀ referent ∈ mention.referent, referent ∈ script.referents
  outside : ∀ mention ∈ script.globals.flatMap GlobalDecl.mentions, ∀ referent ∈ mention.referent,
    referent ∈ script.headers
  inside : ∀ routine ∈ script.routines, ∀ mention ∈ routine.mentions,
    ∀ referent ∈ mention.referent, referent ∈ script.headers ∨ referent ∈ routine.referents
  named : ∀ body ∈ script.examined, Scoped [] body.body
  ordered : ∀ body ∈ script.examined, Stmt.Distinct body.body

namespace Script

/-- The local variables that a script declares, apart from those that are refused. -/
def declaredLocals (script : Script) : List (String × Span) :=
  script.examined.flatMap fun body => (Stmt.listStatements body.body).filterMap Stmt.declared?

theorem mention_of_routine {script : Script} {routine : Routine} (member : routine ∈ script.routines)
    {mention : Mention} (mentioned : mention ∈ routine.mentions) : mention ∈ script.mentions :=
  List.mem_append_right _ (List.mem_flatMap.mpr ⟨routine, member, mentioned⟩)

theorem routine_of_examined {script : Script} {body : CodeScope} (member : body ∈ script.examined) :
    ∃ routine ∈ script.routines, routine.scope = body := by
  rcases List.mem_append.mp member with member | member
  · obtain ⟨decl, own, rfl⟩ := List.mem_map.mp member
    exact ⟨decl.routine, List.mem_append_left _ (List.mem_map_of_mem own), rfl⟩
  · obtain ⟨state, own, member⟩ := List.mem_flatMap.mp member
    obtain ⟨handler, first, rfl⟩ := List.mem_map.mp member
    refine ⟨handler.routine, List.mem_append_right _ (List.mem_flatMap.mpr ⟨state, own, ?_⟩), rfl⟩
    exact List.mem_map_of_mem (HandlerDecl.firsts_sublist.subset first)

end Script

namespace Script.Bound

variable {script : Script} (bound : script.Bound)

include bound

theorem eq_of_start {first second : Referent} (firstMember : first ∈ script.referents)
    (secondMember : second ∈ script.referents) (same : first.start = second.start) :
    first = second :=
  List.inj_on_of_nodup_map bound.declared firstMember secondMember same

/-- No two functions or handlers declare the same. -/
theorem routine_unique {first second : Routine} (firstMember : first ∈ script.routines)
    (secondMember : second ∈ script.routines) {referent : Referent}
    (firstInside : referent ∈ first.referents) (secondInside : referent ∈ second.referents) :
    first = second := by
  by_contra different
  have distinct : script.referents.Nodup := bound.declared.of_map
  have apart := (List.nodup_flatMap.mp (List.nodup_append.mp distinct).2.1).2
  have : Std.Symm (Function.onFun List.Disjoint Routine.referents) :=
    ⟨fun _ _ disjoint _ right left => disjoint left right⟩
  exact apart.forall firstMember secondMember different firstInside secondInside

/-- What a function or handler declares is referred to in it alone. -/
theorem mentioned_inside {routine : Routine} (member : routine ∈ script.routines)
    {referent : Referent} (declares : referent ∈ routine.referents) {mention : Mention}
    (mentioned : mention ∈ script.mentions) (refers : mention.referent = some referent) :
    mention ∈ routine.mentions := by
  have apart : ∀ header ∈ script.headers, header ≠ referent := by
    have distinct : script.referents.Nodup := bound.declared.of_map
    rintro header outer rfl
    exact (List.nodup_append.mp distinct).2.2 header outer header
      (List.mem_flatMap.mpr ⟨routine, member, declares⟩) rfl
  rcases List.mem_append.mp mentioned with outer | inner
  · exact absurd rfl (apart referent (bound.outside mention outer _ refers))
  · obtain ⟨other, otherMember, inner⟩ := List.mem_flatMap.mp inner
    rcases bound.inside other otherMember mention inner _ refers with header | declared
    · exact absurd rfl (apart referent header)
    · exact bound.routine_unique otherMember member declared declares ▸ inner

/-- What something in the script is bound to, if it starts where a function or handler declares
something, is mentioned there. -/
theorem mentioned_of_start {routine : Routine} (member : routine ∈ script.routines)
    {referent : Referent} (declares : referent ∈ routine.referents) {mention : Mention}
    (mentioned : mention ∈ script.mentions) {found : Referent} (refers : mention.referent = some found)
    (same : found.start = referent.start) :
    mention ∈ routine.mentions ∧ mention.referent = some referent := by
  have known : found = referent := bound.eq_of_start (bound.closed mention mentioned found refers)
    (List.mem_append_right _ (List.mem_flatMap.mpr ⟨routine, member, declares⟩)) same
  subst known
  exact ⟨bound.mentioned_inside member declares mentioned refers, refers⟩

theorem is_used_iff {start : Nat} : Use.isUsed script.uses start = true ↔
    ∃ mention ∈ script.mentions, ∃ referent ∈ mention.referent, referent.start = start := by
  rw [bound.recorded]
  exact Mention.used_iff script.bound_uses_perm

theorem used_in_body {routine : Routine} (member : routine ∈ script.routines)
    {referent : Referent} (declares : referent ∈ routine.referents) :
    Use.isUsed (Stmt.listUses routine.scope.body) referent.start =
      Use.isUsed script.uses referent.start := by
  rw [Bool.eq_iff_iff, Mention.used_iff (Stmt.list_uses_perm _), bound.is_used_iff]
  constructor
  · rintro ⟨mention, mentioned, refers⟩
    exact ⟨mention, Script.mention_of_routine member mentioned, refers⟩
  · rintro ⟨mention, mentioned, found, refers, same⟩
    obtain ⟨own, bound⟩ := bound.mentioned_of_start member declares mentioned refers same
    exact ⟨mention, own, referent, bound, rfl⟩

/-- When its scope is closed, all uses of a local variable are known. -/
theorem used_in_scope {body scope : CodeScope} (member : body ∈ script.examined)
    (inside : scope ∈ body.scopes) {stmt : Stmt} (stands : stmt ∈ scope.body) {start : Nat}
    (declares : stmt.declaration? = some start) :
    Use.isUsed (Stmt.listUses scope.body) start = Use.isUsed script.uses start := by
  obtain ⟨routine, routineMember, rfl⟩ := routine_of_examined member
  have declared : ⟨.inScope, start⟩ ∈ routine.referents := by
    have own : stmt.referent? = some ⟨.inScope, start⟩ := by
      rw [Stmt.referent_eq, declares]
      rfl
    refine List.mem_append_right _ (List.mem_filterMap.mpr ⟨stmt, ?_, own⟩)
    exact CodeScope.statements_of_scope inside (Stmt.subset_list_statements stands)
  rw [Bool.eq_iff_iff, Mention.used_iff (Stmt.list_uses_perm scope.body), bound.is_used_iff]
  constructor
  · rintro ⟨mention, mentioned, refers⟩
    exact ⟨mention,
      Script.mention_of_routine routineMember (CodeScope.mentions_of_scope inside mentioned), refers⟩
  · rintro ⟨mention, mentioned, found, refers, same⟩
    obtain ⟨near, refers⟩ :=
      bound.mentioned_of_start routineMember declared mentioned refers same
    obtain ⟨user, userInside, own⟩ := List.mem_flatMap.mp near
    -- What refers to a local variable stands behind its declaration, so in the same scope.
    obtain ⟨front, back, split⟩ := List.append_of_mem stands
    have later : user ∈ Stmt.listStatements back :=
      (bound.named _ member).behind (bound.ordered _ member)
        (CodeScope.behind_of_split inside split) declares (by simp) userInside
        (Stmt.mem_locals.mpr ⟨mention, own, refers⟩)
    refine ⟨mention, List.mem_flatMap.mpr ⟨user, ?_, own⟩, _, refers, rfl⟩
    rw [split, Stmt.list_statements_append]
    exact List.mem_append_right _ (Stmt.mem_of_rest later)

theorem unused_inside {body : CodeScope} (member : body ∈ script.examined) :
    body.unusedInside.Perm (((Stmt.listStatements body.body).filterMap Stmt.declared?).filter
      fun (_, span) => !Use.isUsed script.uses span.start.offset) := by
  have each : ∀ scope ∈ body.scopes, unusedVariables scope.body =
      (scope.body.filterMap Stmt.declared?).filter
        fun (_, span) => !Use.isUsed script.uses span.start.offset := by
    intro scope inside
    refine List.filter_congr fun found declared => ?_
    obtain ⟨stmt, stands, same⟩ := List.mem_filterMap.mp declared
    simp only [bound.used_in_scope member inside stands (Stmt.declaration_of_declared same)]
  rw [CodeScope.unusedInside, List.flatMap_congr each, ← List.filter_flatMap]
  refine .filter _ ?_
  rw [← List.filterMap_flatMap]
  exact body.scopes_perm.filterMap _

/-- The uses of a declaration are the places of the names that are bound to it, each once. -/
theorem places {referent : Referent} (member : referent ∈ script.referents) :
    (Use.placesOf script.uses referent.start).Nodup ∧
      (Use.placesOf script.uses referent.start).Perm
        ((script.mentions.filter (·.referent = some referent)).map (·.place)) := by
  have same := Script.places_perm bound.declared bound.closed member
  rw [← bound.recorded] at same
  have few : ((script.mentions.filter (·.referent = some referent)).map (·.place)).Nodup :=
    bound.mentioned.sublist (List.filter_sublist.map _)
  exact ⟨same.nodup_iff.mpr few, same⟩

theorem unused : (script.examined.flatMap CodeScope.unusedInside).Perm
    (script.declaredLocals.filter fun (_, span) =>
      Use.placesOf script.uses span.start.offset = []) := by
  have empty (start : Nat) :
      (!Use.isUsed script.uses start) = decide (Use.placesOf script.uses start = []) := by
    simp [Use.places_eq_nil]
  rw [declaredLocals, List.filter_flatMap]
  refine .flatMap_left _ fun body member => ?_
  simp only [← empty]
  exact bound.unused_inside member

end Script.Bound

section

variable {outlook : Outlook} {owner : Owner} {parameters : ParameterList} {scope : ScopeInfo}
  {body : List Stmt}

theorem check_body_named (plain : ∀ found ∈ outlook.view.globals, found.binding.local? = none) :
    Scoped [] (checkBody outlook owner parameters scope body).value.2 := by
  simp only [checkBody, Checked.value_bind, Checked.value_pure, value_close_scope]
  rw [Stmt.settled_eq (Scoped []) fun body => propext scoped_marked]
  refine scoped_check ⟨fun found member start bound => ?_, plain⟩ body
  have none := declare_parameters_locals (by simp) parameters.members found member
  simp [none] at bound

theorem check_body_ordered (distinct : Stmt.Distinct body) :
    Stmt.Distinct (checkBody outlook owner parameters scope body).value.2 := by
  simp only [checkBody, Checked.value_bind, Checked.value_pure, value_close_scope, Stmt.Distinct,
    Stmt.settled_eq _ (Stmt.list_starts_marked .live), Stmt.list_starts_check]
  exact distinct

end

theorem examined_checked {library : Library} {script : Script} {body : CodeScope}
    (member : body ∈ (checkDeclarations library script).value.examined) :
    ∃ source ∈ script.bodies, ∃ owner parameters, body = ⟨source.info,
      (checkBody (script.prospect library) owner parameters source.info source.body).value.2⟩ := by
  rw [script.examined_inspections] at member
  obtain ⟨inspection, inside, rfl⟩ := List.mem_map.mp member
  obtain ⟨same, read⟩ := Script.inspections_read inside
  refine ⟨inspection.scope, read, inspection.owner, inspection.parameters, ?_⟩
  rw [Inspection.body, Inspection.result, same]

theorem Script.Bound.concluded {script : Script} (bound : script.Bound)
    (reports : List Diagnostic) : (script.concluded reports).Bound :=
  ⟨bound.recorded, bound.declared, bound.mentioned, bound.closed, bound.outside, bound.inside,
    bound.named, bound.ordered⟩

theorem check_declarations_bound (library : Library) {script : Script}
    (declared : (script.referents.map (·.start)).Nodup)
    (mentioned : (script.mentions.map (·.place)).Nodup)
    (unbound : ∀ mention ∈ script.mentions, mention.referent = none)
    (ordered : ∀ body ∈ script.bodies, Stmt.Distinct body.body) :
    (checkDeclarations library script).value.Bound := by
  have becomes := Script.becomes_checked library unbound
  have examined : ∀ body ∈ (checkDeclarations library script).value.examined,
      Scoped [] body.body ∧ Stmt.Distinct body.body := by
    intro body member
    obtain ⟨read, inside, owner, parameters, rfl⟩ := examined_checked member
    exact ⟨check_body_named (check_globals_plain (by simp) _),
      check_body_ordered (ordered read inside)⟩
  constructor
  case recorded => rfl
  case declared => rwa [becomes.referents]
  case mentioned => rwa [becomes.places]
  case closed => exact becomes.closed
  case outside =>
    rw [becomes.headers]
    exact becomes.globals.known
  case inside =>
    rw [becomes.headers]
    exact Routine.become_inside becomes.routines
  case named => exact fun body member => (examined body member).1
  case ordered => exact fun body member => (examined body member).2

end Lsl
