import Lsl.Proofs.Flow.Marking

/-!
Jumps that stay within reach: the label of every jump stands directly in a scope around it. So a
jump may leave scopes, but nothing enters a scope otherwise than through its first statement or from
within.
-/

set_option autoImplicit false

namespace Lsl

namespace Stmt

def labelStart? : Stmt → Option Nat
  | label info _ => some info.span.start.offset
  | _ => none

/-- The starts of the labels that stand directly among the statements of a scope. -/
def labelStarts (body : List Stmt) : List Nat := body.filterMap labelStart?

end Stmt

/-- Every jump goes to a label in one of the scopes around it. Those outside the statements are
given by the starts of their labels. -/
inductive Bound : List Nat → List Stmt → Prop where
  | nil (around : List Nat) : Bound around []
  | cons {around : List Nat} {stmt : Stmt} {rest : List Stmt}
      (own : ∀ target, stmt.target? = some target →
        target.inReach = true ∧ target.label ∈ around)
      (parts : ∀ part ∈ stmt.parts, Bound (Stmt.labelStarts part.body ++ around) part.body)
      (others : Bound around rest) : Bound around (stmt :: rest)

namespace Stmt

@[simp] theorem label_start_marked (reach : Reachability) (stmt : Stmt) :
    (stmt.marked reach).labelStart? = stmt.labelStart? := by
  cases stmt <;> rfl

@[simp] theorem label_starts_marked (reach : Reachability) (body : List Stmt) :
    labelStarts (listMarked reach body) = labelStarts body := by
  induction body with
  | nil => rfl
  | cons stmt body induction =>
      simp only [labelStarts, listMarked, List.filterMap_cons, label_start_marked]
      simp only [labelStarts] at induction
      rw [induction]

theorem mem_label_starts {start : Nat} {body : List Stmt} :
    start ∈ labelStarts body ↔ ∃ stmt ∈ body, stmt.labelStart? = some start := by
  simp [labelStarts]

theorem start_of_label_start {stmt : Stmt} {start : Nat} (label : stmt.labelStart? = some start) :
    stmt.start = start := by
  cases stmt <;> simp_all [labelStart?, Stmt.start, span]

theorem label_starts_subset {start : Nat} {body : List Stmt} (label : start ∈ labelStarts body) :
    start ∈ listStarts body := by
  obtain ⟨stmt, member, found⟩ := mem_label_starts.mp label
  rw [← start_of_label_start found]
  exact List.mem_map_of_mem (subset_list_statements member)

end Stmt

/-- The labels a jump may go to do not depend on marks. -/
theorem bound_marked {around : List Nat} {reach : Reachability} {body : List Stmt} :
    Bound around (Stmt.listMarked reach body) ↔ Bound around body := by
  induction body using Stmt.list_induction generalizing around with
  | nil => exact ⟨fun _ => .nil around, fun _ => .nil around⟩
  | cons stmt rest inner outer =>
      rw [Stmt.listMarked]
      constructor
      · intro bound
        cases bound with
        | cons own parts others =>
            rw [Stmt.target_marked] at own
            refine .cons own ?_ (outer.mp others)
            intro part member
            have marked := parts (part.marked reach) (by
              rw [Stmt.parts_marked]
              exact List.mem_map_of_mem member)
            simp only [CodeScope.marked, Stmt.label_starts_marked] at marked
            exact (inner part member).mp marked
      · intro bound
        cases bound with
        | cons own parts others =>
            refine .cons ?_ ?_ (outer.mpr others)
            · rwa [Stmt.target_marked]
            · intro part member
              rw [Stmt.parts_marked] at member
              obtain ⟨source, sourceMember, rfl⟩ := List.mem_map.mp member
              simp only [CodeScope.marked, Stmt.label_starts_marked]
              exact (inner source sourceMember).mpr (parts source sourceMember)

theorem Bound.target {around : List Nat} {body : List Stmt} (bound : Bound around body)
    {stmt : Stmt} (inside : stmt ∈ Stmt.listStatements body) {target : JumpTarget}
    (goes : stmt.target? = some target) :
    target.inReach = true ∧
      (target.label ∈ around ∨ target.label ∈ Stmt.listStarts body) := by
  induction bound with
  | nil around => simp [Stmt.listStatements] at inside
  | @cons around head rest own parts others inner outer =>
      have widen : ∀ {start : Nat} {found : List Stmt},
          (∀ stmt ∈ Stmt.listStatements found, stmt ∈ Stmt.listStatements (head :: rest)) →
            start ∈ Stmt.listStarts found → start ∈ Stmt.listStarts (head :: rest) := by
        intro start found contained member
        obtain ⟨stmt, inside, rfl⟩ := List.mem_map.mp member
        exact List.mem_map_of_mem (contained stmt inside)
      rcases Stmt.mem_list_statements_cons.mp inside with rfl | ⟨part, member, inside⟩ | inside
      · obtain ⟨reach, label⟩ := own target goes
        exact ⟨reach, .inl label⟩
      · have contained : ∀ stmt ∈ Stmt.listStatements part.body,
            stmt ∈ Stmt.listStatements (head :: rest) := fun stmt inside =>
          Stmt.mem_list_statements_cons.mpr (.inr (.inl ⟨part, member, inside⟩))
        obtain ⟨reach, label | label⟩ := inner part member inside
        · rcases List.mem_append.mp label with label | label
          · exact ⟨reach, .inr (widen contained (Stmt.label_starts_subset label))⟩
          · exact ⟨reach, .inl label⟩
        · exact ⟨reach, .inr (widen contained label)⟩
      · obtain ⟨reach, label | label⟩ := outer inside
        · exact ⟨reach, .inl label⟩
        · refine ⟨reach, .inr (widen ?_ label)⟩
          intro stmt inside
          exact Stmt.mem_list_statements_cons.mpr (.inr (.inr inside))

theorem Bound.direct {around : List Nat} {body : List Stmt} (bound : Bound around body) {stmt : Stmt}
    (member : stmt ∈ body) {target : JumpTarget} (goes : stmt.target? = some target) :
    target.inReach = true ∧ target.label ∈ around := by
  induction bound with
  | nil around => simp at member
  | cons own _ _ _ induction =>
      rcases List.mem_cons.mp member with rfl | member
      · exact own target goes
      · exact induction member

/-- A label stands directly among the statements, or it stands in front of or behind all of them. -/
def Stmt.Clear (body : List Stmt) (label : Nat) : Prop :=
  label ∈ labelStarts body ∨ (∀ start ∈ listStarts body, label < start) ∨
    ∀ start ∈ listStarts body, start < label

namespace Stmt.Clear

variable {head : Stmt} {others : List Stmt} {label : Nat} (clear : Clear (head :: others) label)
  (order : (listStarts (head :: others)).Pairwise (· < ·))

include clear order

theorem rest : Clear others label := by
  rcases clear with direct | before | behind
  · obtain ⟨stmt, member, starts⟩ := mem_label_starts.mp direct
    rcases List.mem_cons.mp member with rfl | member
    · rw [← start_of_label_start starts]
      have own : stmt.start ∈ listStarts [stmt] := mem_list_starts_cons.mpr (.inl rfl)
      exact .inr (.inl fun start found => lt_of_order order own found)
    · exact .inl (mem_label_starts.mpr ⟨stmt, member, starts⟩)
  · refine .inr (.inl fun start found => before start ?_)
    exact mem_list_starts_cons.mpr (.inr (.inr found))
  · refine .inr (.inr fun start found => behind start ?_)
    exact mem_list_starts_cons.mpr (.inr (.inr found))

theorem part {part : CodeScope} (member : part ∈ head.parts) : Clear part.body label := by
  have within : ∀ {rest : List Stmt} {start : Nat}, start ∈ listStarts part.body →
      start ∈ listStarts (head :: rest) :=
    fun found => mem_list_starts_cons.mpr (.inr (.inl ⟨part, member, found⟩))
  rcases clear with direct | before | behind
  · obtain ⟨stmt, place, starts⟩ := mem_label_starts.mp direct
    rcases List.mem_cons.mp place with rfl | place
    · cases stmt <;> simp_all [labelStart?, parts]
    · have later := label_starts_subset (mem_label_starts.mpr ⟨stmt, place, starts⟩)
      exact .inr (.inr fun start found => lt_of_order order (within found) later)
  · exact .inr (.inl fun start found => before start (within found))
  · exact .inr (.inr fun start found => behind start (within found))

end Stmt.Clear

theorem Bound.scope {around : List Nat} {body : List Stmt} (bound : Bound around body)
    (order : (Stmt.listStarts body).Pairwise (· < ·))
    (clear : ∀ label ∈ around, Stmt.Clear body label) {scope : CodeScope}
    (inside : scope ∈ Stmt.listScopes body) :
    ∃ around, Bound around scope.body ∧ ∀ label ∈ around, Stmt.Clear scope.body label := by
  induction bound with
  | nil around => simp [Stmt.listScopes] at inside
  | @cons around head rest own parts others inner outer =>
      rcases Stmt.mem_list_scopes_cons.mp inside with ⟨part, member, found⟩ | inside
      · have partClear : ∀ label ∈ Stmt.labelStarts part.body ++ around,
            Stmt.Clear part.body label := by
          intro label known
          rcases List.mem_append.mp known with direct | known
          · exact .inl direct
          · exact (clear label known).part order member
        rcases found with rfl | found
        · exact ⟨_, parts scope member, partClear⟩
        · have single : part ∈ Stmt.listScopes (head :: rest) :=
            Stmt.mem_list_scopes_cons.mpr (.inl ⟨part, member, .inl rfl⟩)
          exact inner part member (Stmt.order_scope order single) partClear found
      · have restClear : ∀ label ∈ around, Stmt.Clear rest label := fun label known =>
          (clear label known).rest order
        exact outer (Stmt.order_rest order) restClear inside

end Lsl
