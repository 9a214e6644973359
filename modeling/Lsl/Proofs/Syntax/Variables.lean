import Lsl.Proofs.Parsing.Numbering
import Lsl.Proofs.Syntax.Plain

/-!
The local variables that the scopes of a script declare, each known by the number of its scope. The
numbers of scopes are part of what was read, so that checking keeps them.
-/

set_option autoImplicit false

namespace Lsl

/-- A declaration of a local variable in the scope of the number. -/
structure LocalDecl where
  scope : Nat
  info : StmtInfo
  decl : Variable

def LocalDecl.start (place : LocalDecl) : Nat := place.info.span.start.offset

/-- What a local is told apart by. -/
def LocalDecl.key (place : LocalDecl) : Nat × String := (place.scope, place.decl.name)

/-- The variable that a statement declares in its scope. -/
def Stmt.local? (scope : Nat) : Stmt → Option LocalDecl
  | .declare info decl => some ⟨scope, info, decl⟩
  | _ => none

namespace CodeScope

def declares (scope : CodeScope) : List LocalDecl :=
  scope.body.filterMap (Stmt.local? scope.info.id)

def locals (scope : CodeScope) : List LocalDecl := scope.scopes.flatMap declares

theorem mem_declares {scope : CodeScope} {place : LocalDecl} :
    place ∈ scope.declares ↔
      .declare place.info place.decl ∈ scope.body ∧ place.scope = scope.info.id := by
  simp only [declares, List.mem_filterMap]
  constructor
  · rintro ⟨stmt, member, same⟩
    cases stmt with
    | declare info decl =>
        obtain rfl := Option.some.inj same
        exact ⟨member, rfl⟩
    | _ => cases same
  · rintro ⟨member, same⟩
    exact ⟨_, member, by rw [← same]; rfl⟩

theorem locals_cons (info : ScopeInfo) (stmt : Stmt) (rest : List Stmt) :
    (locals ⟨info, stmt :: rest⟩).Perm
      ((stmt.local? info.id).toList ++ stmt.parts.flatMap locals ++ locals ⟨info, rest⟩) := by
  have own : declares ⟨info, stmt :: rest⟩ =
      (stmt.local? info.id).toList ++ declares ⟨info, rest⟩ := by
    cases found : stmt.local? info.id <;> simp [declares, found]
  have inner : stmt.parts.flatMap locals = (stmt.parts.flatMap scopes).flatMap declares := by
    rw [List.flatMap_assoc]
    rfl
  simp only [locals, scopes, Stmt.listScopes, Stmt.scopes_eq, List.flatMap_cons,
    List.flatMap_append, own, List.append_assoc, inner]
  exact List.Perm.append_left _ (List.perm_append_comm_assoc _ _ _)

def plain (scope : CodeScope) : CodeScope := ⟨scope.info.plain, Stmt.listPlain scope.body⟩

end CodeScope

def Script.locals (script : Script) : List LocalDecl := script.bodies.flatMap CodeScope.locals

theorem Alternatives.parts_plain (rest : Alternatives) :
    rest.plain.parts = rest.parts.map CodeScope.plain := by
  cases rest with
  | done => rfl
  | elseIf span condition scope body rest =>
      simp [plain, parts, rest.parts_plain, CodeScope.plain]
  | otherwise span scope body => simp [plain, parts, CodeScope.plain]

namespace Stmt

theorem parts_plain (stmt : Stmt) : stmt.plain.parts = stmt.parts.map CodeScope.plain := by
  cases stmt <;> simp [plain, parts, Alternatives.parts_plain, CodeScope.plain]

theorem list_ids_plain (body : List Stmt) : listIds (listPlain body) = listIds body := by
  induction body using list_induction with
  | nil => rfl
  | cons stmt rest inner outer =>
      have parts : (stmt.parts.map CodeScope.plain).flatMap
          (fun part => part.info.id :: listIds part.body) =
            stmt.parts.flatMap fun part => part.info.id :: listIds part.body := by
        rw [List.flatMap_map]
        refine List.flatMap_congr fun part member => ?_
        exact congrArg (List.cons part.info.id) (inner part member)
      rw [listPlain, list_ids_cons, list_ids_cons, parts_plain, parts, outer]

end Stmt

theorem StateDecl.bodies_plain (decl : StateDecl) :
    decl.plain.bodies = decl.bodies.map CodeScope.plain := by
  have member : ∀ part : StateMember, part.plain.body? = part.body?.map CodeScope.plain := by
    intro part
    cases part <;> rfl
  simp [bodies, plain, List.filterMap_map, List.map_filterMap, member]

namespace Script

variable (script : Script)

theorem bodies_plain : script.plain.bodies = script.bodies.map CodeScope.plain := by
  cases default : script.defaultState <;>
    simp [bodies, plain, default, StateDecl.bodies_plain, List.flatMap_map, List.map_flatMap,
      Function.comp_def, FunctionDecl.ownScope, FunctionDecl.plain, CodeScope.plain]

theorem scope_ids_plain : script.plain.scopeIds = script.scopeIds := by
  rw [scopeIds, scopeIds, bodies_plain, List.flatMap_map]
  refine List.flatMap_congr fun body _ => ?_
  exact congrArg (List.cons body.info.id) (Stmt.list_ids_plain body.body)

/-- The scopes of a script in the bodies, one body after another. -/
def scopes : List CodeScope := script.bodies.flatMap CodeScope.scopes

theorem scope_ids_eq : script.scopeIds = script.scopes.map (·.info.id) := by
  rw [scopeIds, scopes, List.map_flatMap]
  rfl

theorem locals_eq : script.locals = script.scopes.flatMap CodeScope.declares := by
  rw [locals, scopes, List.flatMap_assoc]
  rfl

end Script

/-- Where the scopes of a script have numbers of their own and no scope declares a name twice, the
locals of the script are told apart by scope and name. -/
theorem Script.locals_distinct {script : Script} (numbered : script.scopeIds.Nodup)
    (single : ∀ scope ∈ script.scopes, (scope.declares.map (·.decl.name)).Nodup) :
    (script.locals.map LocalDecl.key).Nodup := by
  rw [locals_eq, List.map_flatMap, List.nodup_flatMap]
  refine ⟨?_, ?_⟩
  · intro scope member
    refine List.Nodup.of_map Prod.snd ?_
    rw [List.map_map]
    exact single scope member
  · rw [scope_ids_eq, List.Nodup, List.pairwise_map] at numbered
    refine numbered.imp ?_
    intro first second apart
    refine List.disjoint_left.mpr ?_
    intro key inFirst inSecond
    obtain ⟨one, oneMember, rfl⟩ := List.mem_map.mp inFirst
    obtain ⟨other, otherMember, same⟩ := List.mem_map.mp inSecond
    have oneScope := (CodeScope.mem_declares.mp oneMember).2
    have otherScope := (CodeScope.mem_declares.mp otherMember).2
    have equal : other.scope = one.scope := congrArg Prod.fst same
    exact apart (by rw [← oneScope, ← otherScope, equal])

end Lsl
