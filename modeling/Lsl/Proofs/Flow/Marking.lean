import Lsl.Checking.Reachability
import Lsl.Proofs.Flow.Graph

/-!
What settling a body does to its marks, said once for all that is proved from them: a statement is
either dead with everything in it, or live with its own scopes settled anew.
-/

set_option autoImplicit false

namespace Lsl

namespace Stmt

/-- The marks of a statement and of its own scopes. -/
def marks (stmt : Stmt) : List Reachability :=
  stmt.reach :: stmt.parts.map (·.info.reach)

def isBroken : Stmt → Bool
  | broken _ => true
  | _ => false

/-- Statements as they are read: nothing is broken and nothing is marked. -/
def Fresh (body : List Stmt) : Prop :=
  ∀ stmt ∈ listStatements body, stmt.isBroken = false ∧ ∀ mark ∈ stmt.marks, mark = .live

theorem fresh_cons {stmt : Stmt} {rest : List Stmt} :
    Fresh (stmt :: rest) ↔
      (stmt.isBroken = false ∧ ∀ mark ∈ stmt.marks, mark = .live) ∧
        (∀ part ∈ stmt.parts, Fresh part.body) ∧ Fresh rest := by
  constructor
  · intro fresh
    refine ⟨fresh stmt (mem_list_statements_cons.mpr (.inl rfl)), ?_, ?_⟩
    · intro part member found inside
      exact fresh found (mem_list_statements_cons.mpr (.inr (.inl ⟨part, member, inside⟩)))
    · intro found inside
      exact fresh found (mem_list_statements_cons.mpr (.inr (.inr inside)))
  · intro ⟨head, parts, others⟩ found inside
    rcases mem_list_statements_cons.mp inside with rfl | ⟨part, member, inside⟩ | inside
    · exact head
    · exact parts part member found inside
    · exact others found inside

end Stmt

/-- A scope with a reachability for itself and all statements in it. -/
def CodeScope.marked (reach : Reachability) (scope : CodeScope) : CodeScope :=
  ⟨{ scope.info with reach }, Stmt.listMarked reach scope.body⟩

theorem Alternatives.parts_marked (reach : Reachability) (rest : Alternatives) :
    (rest.marked reach).parts = rest.parts.map (CodeScope.marked reach) := by
  match rest with
  | .done => rfl
  | .elseIf _ _ _ body rest =>
      simp only [Alternatives.marked, Alternatives.parts, List.map_cons, rest.parts_marked]
      rfl
  | .otherwise _ _ body => rfl

namespace Stmt

section Marked

variable (reach : Reachability) (stmt : Stmt)

@[simp] theorem parts_marked :
    (stmt.marked reach).parts = stmt.parts.map (CodeScope.marked reach) := by
  cases stmt <;> simp [marked, parts, Alternatives.parts_marked, CodeScope.marked]

@[simp] theorem span_marked : (stmt.marked reach).span = stmt.span := by
  cases stmt <;> rfl

@[simp] theorem start_marked : (stmt.marked reach).start = stmt.start := by
  rw [start, start, span_marked]

@[simp] theorem target_marked : (stmt.marked reach).target? = stmt.target? := by
  cases stmt <;> rfl

@[simp] theorem is_target_marked (targets : List Nat) :
    (stmt.marked reach).isTarget targets = stmt.isTarget targets := by
  cases stmt <;> rfl

theorem marks_marked (whole : stmt.isBroken = false) :
    ∀ mark ∈ (stmt.marked reach).marks, mark = reach := by
  intro mark member
  rcases List.mem_cons.mp member with rfl | member
  · cases stmt <;> simp_all [marked, Stmt.reach, isBroken]
  · simp only [parts_marked, List.map_map, List.mem_map] at member
    obtain ⟨part, _, rfl⟩ := member
    rfl

end Marked

theorem list_marks_marked (reach : Reachability) (body : List Stmt) (fresh : Fresh body) :
    ∀ stmt ∈ listStatements (listMarked reach body), ∀ mark ∈ stmt.marks, mark = reach := by
  induction body using Stmt.list_induction with
  | nil => simp [listMarked, listStatements]
  | cons stmt rest inner outer =>
      obtain ⟨head, parts, others⟩ := fresh_cons.mp fresh
      intro found inside
      rw [listMarked] at inside
      rcases mem_list_statements_cons.mp inside with rfl | ⟨part, member, inside⟩ | inside
      · exact marks_marked reach stmt head.1
      · rw [parts_marked] at member
        obtain ⟨source, sourceMember, rfl⟩ := List.mem_map.mp member
        exact inner source sourceMember (parts source sourceMember) found inside
      · exact outer others found inside

theorem list_scopes_marked (reach : Reachability) (body : List Stmt) :
    listScopes (listMarked reach body) = (listScopes body).map (CodeScope.marked reach) := by
  induction body using Stmt.list_induction with
  | nil => rfl
  | cons stmt rest inner outer =>
      have parts : (stmt.parts.flatMap fun part => (part.marked reach).scopes) =
          stmt.parts.flatMap fun part => part.scopes.map (CodeScope.marked reach) :=
        List.flatMap_congr fun part member => congrArg (_ :: ·) (inner part member)
      rw [listMarked, listScopes, scopes_eq, parts_marked, List.flatMap_map, parts, outer,
        listScopes, scopes_eq, List.map_append, List.map_flatMap]

end Stmt

/-- A scope whose statements are settled from its start. -/
def CodeScope.settled (targets : List Nat) (scope : CodeScope) : CodeScope :=
  ⟨scope.info, (Stmt.listSettle targets {} scope.body).1⟩

theorem Alternatives.parts_settle (targets : List Nat) (rest : Alternatives) :
    (rest.settle targets).1.parts = rest.parts.map (CodeScope.settled targets) := by
  match rest with
  | .done => rfl
  | .elseIf _ _ _ body rest =>
      simp only [Alternatives.settle, Alternatives.parts, List.map_cons, rest.parts_settle]
      rfl
  | .otherwise _ _ body => rfl

namespace Stmt

section Settle

variable (targets : List Nat) (stmt : Stmt)

@[simp] theorem parts_settle :
    (stmt.settle targets).1.parts = stmt.parts.map (CodeScope.settled targets) := by
  cases stmt <;>
    simp [settle, parts, Alternatives.parts_settle, CodeScope.settled]

@[simp] theorem span_settle : (stmt.settle targets).1.span = stmt.span := by
  cases stmt <;> rfl

@[simp] theorem start_settle : (stmt.settle targets).1.start = stmt.start := by
  rw [start, start, span_settle]

@[simp] theorem reach_settle : (stmt.settle targets).1.reach = stmt.reach := by
  cases stmt <;> rfl

@[simp] theorem leave_settle (flow : Flow) :
    flow.leave (stmt.settle targets).1 = flow.leave stmt := by
  cases stmt <;> rfl

@[simp] theorem marks_settle : (stmt.settle targets).1.marks = stmt.marks := by
  simp only [marks, reach_settle, parts_settle, List.map_map]
  rfl

theorem list_settle_cons (flow : Flow) (rest : List Stmt) :
    (listSettle targets flow (stmt :: rest)).1 =
      if flow.dead then
        if stmt.isTarget targets then
          stmt :: (listSettle targets { pending := (flow.meet stmt.start).pending } rest).1
        else
          stmt.marked (flow.meet stmt.start).reach ::
            (listSettle targets ((flow.meet stmt.start).extend stmt.span) rest).1
      else
        (stmt.settle targets).1 ::
          (listSettle targets ((flow.meet stmt.start).leave stmt) rest).1 := by
  by_cases dead : flow.dead = true
  · by_cases target : stmt.isTarget targets = true
    · simp [listSettle, Flow.meet, dead, target]
    · simp [listSettle, Flow.meet, dead, target]
  · simp [listSettle, Flow.meet, dead]

end Settle

end Stmt

/-- A label has no scopes. -/
theorem Stmt.parts_of_target {targets : List Nat} {stmt : Stmt}
    (target : stmt.isTarget targets = true) : stmt.parts = [] := by
  cases stmt <;> simp_all [Stmt.isTarget, Stmt.parts]

/-- A label does not jump. -/
theorem Stmt.target_of_is_target {targets : List Nat} {stmt : Stmt}
    (target : stmt.isTarget targets = true) : stmt.target? = none := by
  cases stmt <;> simp_all [Stmt.isTarget, Stmt.target?]

/-- The marks of statements in a row, where a flow has led up to them. -/
inductive Settled (targets : List Nat) : Flow → List Stmt → Prop where
  | nil (flow : Flow) : Settled targets flow []
  | dead {flow : Flow} {stmt : Stmt} {rest : List Stmt} (dead : flow.dead = true)
      (ordinary : stmt.isTarget targets = false)
      (marks : ∀ found ∈ stmt.statements, ∀ mark ∈ found.marks,
        mark = (flow.meet stmt.start).reach)
      (others : Settled targets ((flow.meet stmt.start).extend stmt.span) rest) :
      Settled targets flow (stmt :: rest)
  | revived {flow : Flow} {stmt : Stmt} {rest : List Stmt} (dead : flow.dead = true)
      (target : stmt.isTarget targets = true) (marks : ∀ mark ∈ stmt.marks, mark = .live)
      (others : Settled targets { pending := (flow.meet stmt.start).pending } rest) :
      Settled targets flow (stmt :: rest)
  | live {flow : Flow} {stmt : Stmt} {rest : List Stmt} (live : flow.dead = false)
      (marks : ∀ mark ∈ stmt.marks, mark = .live)
      (parts : ∀ part ∈ stmt.parts, Settled targets {} part.body)
      (others : Settled targets ((flow.meet stmt.start).leave stmt) rest) :
      Settled targets flow (stmt :: rest)

theorem settled_of_fresh (targets : List Nat) (flow : Flow) (body : List Stmt)
    (fresh : Stmt.Fresh body) : Settled targets flow (Stmt.listSettle targets flow body).1 := by
  induction body using Stmt.list_induction generalizing flow with
  | nil => exact .nil flow
  | cons stmt rest inner outer =>
      obtain ⟨⟨whole, unmarked⟩, parts, others⟩ := Stmt.fresh_cons.mp fresh
      rw [Stmt.list_settle_cons]
      split_ifs with dead target
      · exact .revived dead target unmarked (outer _ others)
      · have ordinary : (stmt.marked (flow.meet stmt.start).reach).isTarget targets = false := by
          simpa using target
        refine .dead dead ordinary ?_ ?_
        · intro found inside
          rw [Stmt.start_marked]
          have alone : Stmt.Fresh [stmt] :=
            Stmt.fresh_cons.mpr ⟨⟨whole, unmarked⟩, parts, by simp [Stmt.Fresh, Stmt.listStatements]⟩
          apply Stmt.list_marks_marked _ [stmt] alone
          simpa [Stmt.listMarked, Stmt.listStatements] using inside
        · rw [Stmt.start_marked, Stmt.span_marked]
          exact outer _ others
      · refine .live (by simpa using dead) (by rwa [Stmt.marks_settle]) ?_ ?_
        · intro part member
          rw [Stmt.parts_settle] at member
          obtain ⟨source, sourceMember, rfl⟩ := List.mem_map.mp member
          exact inner source sourceMember {} (parts source sourceMember)
        · rw [Stmt.start_settle, Stmt.leave_settle]
          exact outer _ others

theorem Alternatives.marked_marked (first second : Reachability) (rest : Alternatives)
    (parts : ∀ part ∈ rest.parts, Stmt.listMarked second (Stmt.listMarked first part.body) =
      Stmt.listMarked second part.body) :
    (rest.marked first).marked second = rest.marked second := by
  match rest with
  | .done => rfl
  | .elseIf _ _ scope body rest =>
      have head := parts ⟨scope, body⟩ List.mem_cons_self
      have tail := rest.marked_marked first second fun part member =>
        parts part (List.mem_cons_of_mem _ member)
      simp only [Alternatives.marked, head, tail]
  | .otherwise _ scope body =>
      have head := parts ⟨scope, body⟩ List.mem_cons_self
      simp only [Alternatives.marked, head]

theorem Stmt.list_marked_marked (first second : Reachability) (body : List Stmt) :
    listMarked second (listMarked first body) = listMarked second body := by
  induction body using Stmt.list_induction with
  | nil => rfl
  | cons stmt rest inner outer =>
      have head : (stmt.marked first).marked second = stmt.marked second := by
        cases stmt with
        | branch info span condition scope body alternatives =>
            have own := inner ⟨scope, body⟩ List.mem_cons_self
            have others := alternatives.marked_marked first second fun part member =>
              inner part (List.mem_cons_of_mem _ member)
            simp only [marked, own, others]
        | _ => simp_all [marked, parts]
      simp only [listMarked, head, outer]

theorem Alternatives.marked_settle (targets : List Nat) (reach : Reachability)
    (rest : Alternatives)
    (parts : ∀ part ∈ rest.parts, Stmt.listMarked reach (Stmt.listSettle targets {} part.body).1 =
      Stmt.listMarked reach part.body) :
    (rest.settle targets).1.marked reach = rest.marked reach := by
  match rest with
  | .done => rfl
  | .elseIf _ _ scope body rest =>
      have head := parts ⟨scope, body⟩ List.mem_cons_self
      have tail := rest.marked_settle targets reach fun part member =>
        parts part (List.mem_cons_of_mem _ member)
      simp only [Alternatives.settle, Alternatives.marked, head, tail]
  | .otherwise _ scope body =>
      have head := parts ⟨scope, body⟩ List.mem_cons_self
      simp only [Alternatives.settle, Alternatives.marked, head]

/-- Settling changes marks and nothing else: under one common mark both bodies are the same. -/
theorem Stmt.list_marked_settle (targets : List Nat) (flow : Flow) (reach : Reachability)
    (body : List Stmt) :
    listMarked reach (listSettle targets flow body).1 = listMarked reach body := by
  induction body using Stmt.list_induction generalizing flow with
  | nil => rfl
  | cons stmt rest inner outer =>
      have head : (stmt.settle targets).1.marked reach = stmt.marked reach := by
        cases stmt with
        | branch info span condition scope body alternatives =>
            have own := inner ⟨scope, body⟩ List.mem_cons_self {}
            have others := alternatives.marked_settle targets reach fun part member =>
              inner part (List.mem_cons_of_mem _ member) {}
            simp only [settle, marked, own, others]
        | _ => simp_all [settle, marked, parts]
      rw [list_settle_cons]
      split_ifs with dead target
      · simp only [listMarked, outer]
      · have again : (stmt.marked (flow.meet stmt.start).reach).marked reach =
            stmt.marked reach := by
          have single := list_marked_marked (flow.meet stmt.start).reach reach [stmt]
          simpa [listMarked] using single
        simp only [listMarked, again, outer]
      · simp only [listMarked, head, outer]

/-- Settling asks of the targets only which labels of the statements are among them. -/
theorem Alternatives.settle_congr {targets others : List Nat} {rest : Alternatives}
    (parts : ∀ part ∈ rest.parts, Stmt.listSettle targets {} part.body =
      Stmt.listSettle others {} part.body) : rest.settle targets = rest.settle others := by
  match rest with
  | .done => rfl
  | .elseIf _ _ scope body rest =>
      have head := parts ⟨scope, body⟩ List.mem_cons_self
      have tail := rest.settle_congr fun part member => parts part (List.mem_cons_of_mem _ member)
      simp only [Alternatives.settle, head, tail]
  | .otherwise _ scope body =>
      have head := parts ⟨scope, body⟩ List.mem_cons_self
      simp only [Alternatives.settle, head]

theorem Stmt.list_settle_congr {targets others : List Nat} {body : List Stmt}
    (alike : ∀ stmt ∈ listStatements body, stmt.isTarget targets = stmt.isTarget others)
    (flow : Flow) : listSettle targets flow body = listSettle others flow body := by
  induction body using Stmt.list_induction generalizing flow with
  | nil => rfl
  | cons stmt rest inner outer =>
      have own := alike stmt (mem_list_statements_cons.mpr (.inl rfl))
      have parts : ∀ part ∈ stmt.parts,
          listSettle targets {} part.body = listSettle others {} part.body := by
        intro part member
        refine inner part member (fun found inside => alike found ?_) {}
        exact mem_list_statements_cons.mpr (.inr (.inl ⟨part, member, inside⟩))
      have later := outer fun found inside =>
        alike found (mem_list_statements_cons.mpr (.inr (.inr inside)))
      have settled : stmt.settle targets = stmt.settle others := by
        cases stmt with
        | branch info span condition scope body alternatives =>
            have first := parts ⟨scope, body⟩ List.mem_cons_self
            have others := Alternatives.settle_congr fun part member =>
              parts part (List.mem_cons_of_mem _ member)
            simp only [settle, first, others]
        | _ => simp_all [settle, Stmt.parts]
      simp only [listSettle, own, settled, later]

theorem Alternatives.uses_marked {reach : Reachability} {rest : Alternatives}
    (parts : ∀ part ∈ rest.parts, Stmt.listUses (Stmt.listMarked reach part.body) =
      Stmt.listUses part.body) : (rest.marked reach).uses = rest.uses := by
  match rest with
  | .done => rfl
  | .elseIf _ _ scope body rest =>
      have head := parts ⟨scope, body⟩ List.mem_cons_self
      have tail := rest.uses_marked fun part member => parts part (List.mem_cons_of_mem _ member)
      simp only [Alternatives.marked, Alternatives.uses, head, tail]
  | .otherwise _ scope body => exact parts ⟨scope, body⟩ List.mem_cons_self

theorem Stmt.list_uses_marked (reach : Reachability) (body : List Stmt) :
    listUses (listMarked reach body) = listUses body := by
  induction body using Stmt.list_induction with
  | nil => rfl
  | cons stmt rest inner outer =>
      have head : (stmt.marked reach).uses = stmt.uses := by
        cases stmt with
        | branch info span condition scope body alternatives =>
            have own := inner ⟨scope, body⟩ List.mem_cons_self
            have others := Alternatives.uses_marked fun part member =>
              inner part (List.mem_cons_of_mem _ member)
            simp only [marked, uses, own, others]
        | _ => simp_all [marked, uses, parts]
      rw [listMarked, listUses, listUses, head, outer]

namespace Stmt

theorem list_marked_eq (reach : Reachability) (body : List Stmt) :
    listMarked reach body = body.map (marked reach) := by
  induction body with
  | nil => rfl
  | cons stmt rest induction => rw [listMarked, induction, List.map_cons]

theorem list_statements_marked (reach : Reachability) (body : List Stmt) :
    listStatements (listMarked reach body) = (listStatements body).map (marked reach) := by
  induction body using Stmt.list_induction with
  | nil => rfl
  | cons stmt rest inner outer =>
      have parts : (stmt.parts.flatMap fun part => listStatements (part.marked reach).body) =
          stmt.parts.flatMap fun part => (listStatements part.body).map (marked reach) :=
        List.flatMap_congr fun part member => inner part member
      simp only [listMarked, listStatements, statements_eq, parts_marked, List.flatMap_map, parts,
        outer, List.map_append, List.map_cons, List.map_flatMap]

theorem list_starts_marked (reach : Reachability) (body : List Stmt) :
    listStarts (listMarked reach body) = listStarts body := by
  rw [listStarts, list_statements_marked, List.map_map, listStarts]
  exact List.map_congr_left fun stmt _ => stmt.start_marked reach

/-- A settled body differs from the body before in its marks alone. -/
theorem settle_statement {targets : List Nat} {body : List Stmt} {stmt : Stmt}
    (inside : stmt ∈ listStatements (listSettle targets {} body).1) :
    ∃ source ∈ listStatements body, source.marked .live = stmt.marked .live := by
  have marked : stmt.marked .live ∈ listStatements
      (listMarked .live (listSettle targets {} body).1) := by
    rw [list_statements_marked]
    exact List.mem_map_of_mem inside
  rw [list_marked_settle, list_statements_marked] at marked
  exact List.mem_map.mp marked

end Stmt

end Lsl
