import Lsl.Proofs.Generation.Jumps

/-!
Where a statement of generated code stands. Each scope of a method is the code of a scope of the
source and is written in braces; what stands in it opens it or is written for one of its statements.
-/

set_option autoImplicit false

namespace Lsl

theorem CodeAlternatives.opened_within (access : GlobalAccess) (depth : Nat)
    (rest : CodeAlternatives) {part : List CodeStmt} (opened : part ∈ rest.bodies) :
    Fragment.braced depth (CodeStmt.listFragments access (depth + 1) part) <:+:
      rest.fragments access depth := by
  match rest with
  | .done => simp [bodies] at opened
  | .elseIf condition body rest =>
      rw [fragments]
      rcases List.mem_cons.mp opened with rfl | opened
      · exact infix_left _ (infix_right _ List.infix_rfl)
      · exact infix_right _ (rest.opened_within access depth opened)
  | .otherwise body =>
      obtain rfl := List.mem_singleton.mp opened
      exact infix_right _ List.infix_rfl

namespace CodeStmt

theorem opened_within (access : GlobalAccess) (depth : Nat) (stmt : CodeStmt)
    {part : List CodeStmt} (opened : part ∈ stmt.bodies) :
    Fragment.braced depth (listFragments access (depth + 1) part) <:+:
      stmt.fragments access depth := by
  cases stmt with
  | block body =>
      obtain rfl := List.mem_singleton.mp opened
      exact List.infix_rfl
  | branch condition body rest =>
      rw [fragments]
      rcases List.mem_cons.mp opened with rfl | opened
      · exact infix_left _ (infix_right _ List.infix_rfl)
      · exact infix_right _ (rest.opened_within access depth opened)
  | whileLoop condition body | forLoop init condition afterthought body =>
      obtain rfl := List.mem_singleton.mp opened
      exact infix_right _ List.infix_rfl
  | doLoop body condition =>
      obtain rfl := List.mem_singleton.mp opened
      exact infix_left _ (infix_left _ (infix_right _ List.infix_rfl))
  | _ => simp [bodies] at opened

theorem statement_within (access : GlobalAccess) (depth : Nat) {stmt : CodeStmt}
    {codes : List CodeStmt} (member : stmt ∈ codes) :
    stmt.fragments access depth <:+: listFragments access depth codes := by
  induction codes with
  | nil => simp at member
  | cons head rest induction =>
      rw [listFragments]
      rcases List.mem_cons.mp member with rfl | member
      · exact infix_left _ List.infix_rfl
      · exact infix_right _ (induction member)

theorem Stands.scope_within {stmt : CodeStmt} {body : List CodeStmt}
    {scopes : List (List CodeStmt)} (stands : stmt.Stands body scopes) (access : GlobalAccess)
    (depth : Nat) {codes : List CodeStmt} (innermost : scopes.head? = some codes) :
    ∃ inner, Fragment.braced inner (listFragments access (inner + 1) codes) <:+:
      Fragment.braced depth (listFragments access (depth + 1) body) := by
  induction stands generalizing depth with
  | here member =>
      obtain rfl := Option.some.inj innermost
      exact ⟨depth, List.infix_rfl⟩
  | @inside body part holder scopes member opened inner induction =>
      have own : scopes.head? = some codes := by
        cases inner <;> simpa using innermost
      obtain ⟨inner, within⟩ := induction (depth + 1) own
      refine ⟨inner, within.trans ?_⟩
      exact (holder.opened_within access (depth + 1) opened).trans
        ((statement_within access (depth + 1) member).trans (Fragment.braced_within depth _))

theorem Stands.innermost {stmt : CodeStmt} {body : List CodeStmt} {scopes : List (List CodeStmt)}
    (stands : stmt.Stands body scopes) : ∃ codes, scopes.head? = some codes ∧ stmt ∈ codes := by
  induction stands with
  | @here body member => exact ⟨body, rfl, member⟩
  | inside member opened inner induction =>
      obtain ⟨codes, first, member⟩ := induction
      exact ⟨codes, by rw [List.head?_append, first]; rfl, member⟩

end CodeStmt

namespace Program

variable {program : Program} (settings : Settings) {method : Method}
  (member : method ∈ program.methods) {stmt : CodeStmt} {scopes : List (List CodeStmt)}
  (stands : stmt.Stands method.body scopes) (date : String)

include member stands

/-- The scope in which a statement stands directly is written in the text of the program. -/
theorem scope_within {codes : List CodeStmt} (innermost : scopes.head? = some codes) :
    ∃ depth, Fragment.braced depth (CodeStmt.listFragments settings.access (depth + 1) codes) <:+:
      program.fragments settings date := by
  obtain ⟨depth, within⟩ := stands.scope_within settings.access settings.depth innermost
  have body : Fragment.braced settings.depth
      (CodeStmt.listFragments settings.access (settings.depth + 1) method.body) <:+:
      method.fragments settings.access settings.depth := (List.suffix_append _ _).isInfix
  exact ⟨depth, within.trans (body.trans (method_within settings member date))⟩

theorem statement_within :
    ∃ depth, stmt.fragments settings.access depth <:+: program.fragments settings date := by
  obtain ⟨codes, first, direct⟩ := stands.innermost
  obtain ⟨depth, within⟩ := scope_within settings member stands date first
  have own := CodeStmt.statement_within settings.access (depth + 1) direct
  exact ⟨depth + 1, (own.trans (Fragment.braced_within depth _)).trans within⟩

end Program

theorem Stmt.scopes_of_mem {stmt : Stmt} {body : List Stmt} (member : stmt ∈ body) :
    stmt.scopes ⊆ listScopes body := by
  obtain ⟨front, back, rfl⟩ := List.append_of_mem member
  intro scope inside
  induction front with
  | nil => exact List.mem_append_left _ inside
  | cons head front induction => exact List.mem_append_right _ (induction (by simp))

namespace CodeScope

variable {manner : Manner} {inHandler : Bool}

/-- The scope in which a statement of the code of a scope stands directly is the code of that scope
or of one in it. -/
theorem scope_of_stands {stmt : CodeStmt} {codes : List CodeStmt} {scopes : List (List CodeStmt)}
    (stands : stmt.Stands codes scopes) {scope : CodeScope}
    (code : codes = scope.code manner inHandler) {innermost : List CodeStmt}
    (first : scopes.head? = some innermost) :
    ∃ found ∈ scope.scopes, innermost = found.code manner inHandler := by
  induction stands generalizing scope with
  | here member =>
      obtain rfl := Option.some.inj first
      exact ⟨scope, List.mem_cons_self, code⟩
  | @inside codes opened holder scopes member opens inner induction =>
      subst code
      obtain ⟨stmt, inside, part, own, rfl⟩ := CodeScope.part_of_code inHandler member opens
      have same : scopes.head? = some innermost := by
        cases inner <;> simpa using first
      obtain ⟨found, among, code⟩ := induction rfl same
      refine ⟨found, List.mem_cons_of_mem _ (Stmt.scopes_of_mem inside ?_), code⟩
      rw [Stmt.scopes_eq]
      exact List.mem_flatMap.mpr ⟨part, own, among⟩

/-- A statement in the code of a scope opens that or one in it, or is written for a statement
there. -/
theorem source_of_stands {stmt : CodeStmt} {scope : CodeScope} {scopes : List (List CodeStmt)}
    (stands : stmt.Stands (scope.code manner inHandler) scopes) :
    (∃ found ∈ scope.scopes, stmt ∈ scopeStart manner found.info found.body) ∨
      ∃ source ∈ Stmt.listStatements scope.body, ∃ number isLast,
        stmt ∈ source.code manner inHandler number isLast := by
  obtain ⟨codes, first, direct⟩ := stands.innermost
  obtain ⟨found, among, rfl⟩ := scope_of_stands stands rfl first
  rcases List.mem_append.mp direct with start | direct
  · exact .inl ⟨found, among, start⟩
  · obtain ⟨source, inside, isLast, written⟩ := Stmt.mem_codes manner inHandler direct
    refine .inr ⟨source, ?_, _, isLast, written⟩
    rcases List.mem_cons.mp among with rfl | among
    · exact Stmt.subset_list_statements inside
    · exact Stmt.mem_statements_of_scope among (Stmt.subset_list_statements inside)

end CodeScope

namespace Script

variable {library : Library} {settings : Settings} {script : Script}

/-- The bodies that have a part in the program. -/
def writtenBodies (script : Script) : List CodeScope :=
  (script.functions.filter (Use.isUsed script.uses ·.start)).map FunctionDecl.ownScope ++
    script.allStates.flatMap StateDecl.bodies

theorem written_bodies_subset : script.writtenBodies ⊆ script.bodies := by
  intro body member
  rcases List.mem_append.mp member with member | member
  · obtain ⟨decl, inside, rfl⟩ := List.mem_map.mp member
    exact List.mem_append_left _ (List.mem_map_of_mem (List.mem_of_mem_filter inside))
  · exact List.mem_append_right _ member

theorem body_of_method {method : Method}
    (member : method ∈ (script.program library settings).methods) :
    ∃ body ∈ script.writtenBodies, ∃ inHandler,
      method.body = body.code ⟨library, settings, script.uses⟩ inHandler := by
  rw [Program.methods, List.append_assoc] at member
  rcases List.mem_append.mp member with member | member
  · obtain ⟨decl, inside, rfl⟩ := List.mem_map.mp member
    exact ⟨decl.ownScope, List.mem_append_left _ (List.mem_map_of_mem inside), false, rfl⟩
  · obtain ⟨state, known, written⟩ : ∃ state ∈ script.allStates,
        method ∈ state.code ⟨library, settings, script.uses⟩ := by
      rcases List.mem_append.mp member with member | member
      · obtain ⟨handlers, inside, member⟩ := List.mem_flatten.mp member
        obtain ⟨state, known, rfl⟩ := List.mem_map.mp inside
        exact ⟨state, List.mem_append_right _ known, member⟩
      · cases initial : script.defaultState with
        | none => simp [program, initial] at member
        | some first =>
            refine ⟨first, List.mem_append_left _ (by simp [initial]), ?_⟩
            simpa [program, initial] using member
    obtain ⟨decl, handler, rfl⟩ := StateDecl.mem_code written
    exact ⟨decl.ownScope, List.mem_append_right _
      (List.mem_flatMap.mpr ⟨state, known, StateDecl.own_scope_mem handler⟩), true, rfl⟩

end Script

end Lsl
