import Lsl.Proofs.Flow.Marking
import Lsl.Proofs.Syntax.Locals

/-!
Names that stay in scope: a statement refers only to local variables that are declared in front of
it, in its own scope or in one around it.
-/

set_option autoImplicit false

namespace Lsl

/-- Every statement refers only to what is declared in front of it, or else to the given
declarations. -/
inductive Scoped : List Nat → List Stmt → Prop where
  | nil (visible : List Nat) : Scoped visible []
  | cons {visible : List Nat} {stmt : Stmt} {rest : List Stmt}
      (own : ∀ start ∈ stmt.locals, start ∈ visible)
      (parts : ∀ part ∈ stmt.parts, Scoped visible part.body)
      (others : Scoped (stmt.declaration?.toList ++ visible) rest) :
      Scoped visible (stmt :: rest)

@[simp] theorem Alternatives.conditions_marked (reach : Reachability) (rest : Alternatives) :
    (rest.marked reach).conditions = rest.conditions := by
  match rest with
  | .done => rfl
  | .elseIf _ _ _ _ rest =>
      simp only [Alternatives.marked, Alternatives.conditions, rest.conditions_marked]
  | .otherwise _ _ _ => rfl

namespace Stmt

@[simp] theorem locals_marked (reach : Reachability) (stmt : Stmt) :
    (stmt.marked reach).locals = stmt.locals := by
  have same : (stmt.marked reach).exprs = stmt.exprs := by
    cases stmt <;> simp [marked, exprs]
  rw [locals, locals, same]

@[simp] theorem declaration_marked (reach : Reachability) (stmt : Stmt) :
    (stmt.marked reach).declaration? = stmt.declaration? := by
  cases stmt <;> rfl

end Stmt

theorem scoped_marked {reach : Reachability} {visible : List Nat} {body : List Stmt} :
    Scoped visible (Stmt.listMarked reach body) ↔ Scoped visible body := by
  induction body using Stmt.list_induction generalizing visible with
  | nil => rfl
  | cons stmt rest inner outer =>
      rw [Stmt.listMarked]
      constructor
      · rintro (_ | ⟨own, parts, others⟩)
        refine .cons (by simpa using own) ?_ (by simpa [outer] using others)
        intro part member
        exact (inner part member).mp (parts (part.marked reach)
          (by rw [Stmt.parts_marked]; exact List.mem_map_of_mem member))
      · rintro (_ | ⟨own, parts, others⟩)
        refine .cons (by simpa using own) ?_ (by simpa [outer] using others)
        intro part member
        rw [Stmt.parts_marked] at member
        obtain ⟨source, sourceMember, rfl⟩ := List.mem_map.mp member
        exact (inner source sourceMember).mpr (parts source sourceMember)

namespace Scoped

variable {visible : List Nat} {body : List Stmt}

/-- What is referred to is in view, or is declared among the statements. -/
theorem mem_starts (named : Scoped visible body) {stmt : Stmt}
    (inside : stmt ∈ Stmt.listStatements body) {start : Nat} (refers : start ∈ stmt.locals) :
    start ∈ visible ∨ start ∈ Stmt.listStarts body := by
  induction named with
  | nil => simp [Stmt.listStatements] at inside
  | @cons visible head rest own parts others inner outer =>
      rw [Stmt.mem_list_starts_cons]
      rcases Stmt.mem_list_statements_cons.mp inside with rfl | ⟨part, member, inside⟩ | inside
      · exact .inl (own start refers)
      · rcases inner part member inside with seen | found
        · exact .inl seen
        · exact .inr (.inr (.inl ⟨part, member, found⟩))
      · rcases outer inside with seen | found
        · rcases List.mem_append.mp seen with declared | seen
          · have same := Stmt.start_of_declaration (Option.mem_toList.mp declared)
            exact .inr (.inl same.symm)
          · exact .inl seen
        · exact .inr (.inr (.inr found))

theorem behind (named : Scoped visible body) (distinct : Stmt.Distinct body)
    {declaration : Stmt} {back : List Stmt} (stands : Behind declaration back body) {start : Nat}
    (declares : declaration.declaration? = some start) (hidden : start ∉ visible) {stmt : Stmt}
    (inside : stmt ∈ Stmt.listStatements body) (refers : start ∈ stmt.locals) :
    stmt ∈ Stmt.listStatements back := by
  have place : ∀ {scope : List Stmt}, Behind declaration back scope →
      start ∈ Stmt.listStarts scope := by
    intro scope stands
    rw [← Stmt.start_of_declaration declares]
    exact List.mem_map_of_mem stands.mem
  induction stands generalizing visible with
  | here =>
      obtain _ | ⟨own, parts, others⟩ := named
      rcases Stmt.mem_list_statements_cons.mp inside with rfl | ⟨part, member, _⟩ | inside
      · exact absurd (own start refers) hidden
      · rw [Stmt.parts_of_declaration declares] at member
        simp at member
      · exact inside
  | @rest head rest later induction =>
      obtain _ | ⟨own, parts, others⟩ := named
      have far := place later
      rcases Stmt.mem_list_statements_cons.mp inside with rfl | ⟨part, member, inside⟩ | inside
      · exact absurd (own start refers) hidden
      · rcases (parts part member).mem_starts inside refers with seen | found
        · exact absurd seen hidden
        · exact absurd far (distinct.part_not_rest member found)
      · refine induction others distinct.rest ?_ inside
        rw [List.mem_append, not_or]
        refine ⟨?_, hidden⟩
        intro declared
        have same := Stmt.start_of_declaration (Option.mem_toList.mp declared)
        exact distinct.head_not_rest (same ▸ far)
  | @part head rest scope member inner induction =>
      obtain _ | ⟨own, parts, others⟩ := named
      have near := place inner
      rcases Stmt.mem_list_statements_cons.mp inside with rfl | ⟨other, otherMember, inside⟩ | inside
      · exact absurd (own start refers) hidden
      · rcases (parts other otherMember).mem_starts inside refers with seen | found
        · exact absurd seen hidden
        · have same := distinct.part_unique member otherMember near found
          subst same
          exact induction (parts scope member) (distinct.part member) hidden inside
      · rcases others.mem_starts inside refers with seen | found
        · rcases List.mem_append.mp seen with declared | seen
          · have leaf := Stmt.parts_of_declaration (Option.mem_toList.mp declared)
            simp [leaf] at member
          · exact absurd seen hidden
        · exact absurd found (distinct.part_not_rest member near)

end Scoped

end Lsl
