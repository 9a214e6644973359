import Lsl.Proofs.Flow.Jumps

/-!
Live code is closed under control flow. The one edge that is not local is the jump: its label stands
in a scope around it, that scope is live because the jump is, and a label that is jumped to is live
in every live scope.
-/

set_option autoImplicit false

namespace Lsl

def Point.LiveIn (body : List Stmt) (point : Point) : Prop :=
  ∃ stmt ∈ Stmt.listStatements body, point = .before stmt.start ∧ stmt.reach = .live

theorem Point.LiveIn.widen {inner outer : List Stmt} {point : Point} (live : point.LiveIn inner)
    (contained : ∀ stmt ∈ Stmt.listStatements inner, stmt ∈ Stmt.listStatements outer) :
    point.LiveIn outer := by
  obtain ⟨stmt, inside, same, reach⟩ := live
  exact ⟨stmt, contained stmt inside, same, reach⟩

namespace Stmt

theorem reach_mem_marks (stmt : Stmt) : stmt.reach ∈ stmt.marks := List.mem_cons_self

end Stmt

namespace Flow

theorem reach_not_live (flow : Flow) : flow.reach ≠ .live := by
  unfold reach
  split_ifs <;> decide

theorem leave_of_not_exit (flow : Flow) {stmt : Stmt} (stays : stmt.isExit = false) :
    flow.leave stmt = flow := by
  cases stmt <;> simp_all [leave, Stmt.isExit]

end Flow

namespace Settled

variable {targets : List Nat} {flow : Flow} {body : List Stmt}

theorem reach_of_dead {stmt found : Stmt}
    (marks : ∀ found ∈ stmt.statements, ∀ mark ∈ found.marks,
      mark = (flow.meet stmt.start).reach)
    (inside : found = stmt ∨ ∃ part ∈ stmt.parts, found ∈ Stmt.listStatements part.body) :
    found.reach ≠ .live := by
  have own : found ∈ stmt.statements := by
    rw [Stmt.statements_eq, List.mem_cons, List.mem_flatMap]
    exact inside
  rw [marks found own found.reach found.reach_mem_marks]
  exact Flow.reach_not_live _

/-- A scope in settled statements is settled from its start, or it is dead with all that stands in
it. -/
theorem scope_or_dead (settled : Settled targets flow body) {scope : CodeScope}
    (inside : scope ∈ Stmt.listScopes body) :
    Settled targets {} scope.body ∨
      (scope.info.reach ≠ .live ∧
        ∀ stmt ∈ Stmt.listStatements scope.body, stmt.reach ≠ .live) := by
  induction settled with
  | nil => simp [Stmt.listScopes] at inside
  | @dead flow stmt rest _ _ marks _ outer =>
      rcases Stmt.mem_list_scopes_cons.mp inside with ⟨part, member, found⟩ | inside
      · refine .inr ⟨?_, fun other within => reach_of_dead marks (.inr ⟨part, member, ?_⟩)⟩
        · have holder : ∃ holder ∈ stmt.statements, scope ∈ holder.parts := by
            rcases found with rfl | found
            · exact ⟨stmt, stmt.mem_statements_self, member⟩
            · obtain ⟨holder, among, own⟩ := Stmt.holder_of_scope found
              refine ⟨holder, ?_, own⟩
              rw [Stmt.statements_eq]
              exact List.mem_cons_of_mem _ (List.mem_flatMap.mpr ⟨part, member, among⟩)
          obtain ⟨holder, among, own⟩ := holder
          rw [marks holder among _ (List.mem_cons_of_mem _ (List.mem_map_of_mem own))]
          exact Flow.reach_not_live _
        · rcases found with rfl | found
          · exact within
          · exact Stmt.mem_statements_of_scope found within
      · exact outer inside
  | revived _ target _ _ outer =>
      rcases Stmt.mem_list_scopes_cons.mp inside with ⟨part, member, _⟩ | inside
      · simp [Stmt.parts_of_target target] at member
      · exact outer inside
  | live _ _ parts _ inner outer =>
      rcases Stmt.mem_list_scopes_cons.mp inside with ⟨part, member, rfl | found⟩ | inside
      · exact .inl (parts scope member)
      · exact inner part member found
      · exact outer inside

theorem entry_live (settled : Settled targets flow body) (alive : flow.dead = false)
    (next : Point) :
    Stmt.entry next body = next ∨ (Stmt.entry next body).LiveIn body := by
  cases settled with
  | nil => exact .inl rfl
  | dead dead => simp [alive] at dead
  | revived dead => simp [alive] at dead
  | @live _ stmt rest _ marks parts others =>
      exact .inr ⟨stmt, Stmt.mem_list_statements_cons.mpr (.inl rfl), rfl,
        marks _ stmt.reach_mem_marks⟩

/-- What a live statement says about itself and its own scopes. -/
theorem of_live (settled : Settled targets flow body) {stmt : Stmt}
    (inside : stmt ∈ Stmt.listStatements body) (alive : stmt.reach = .live) :
    (∀ mark ∈ stmt.marks, mark = .live) ∧
      ∀ part ∈ stmt.parts, Settled targets {} part.body := by
  induction settled with
  | nil => simp [Stmt.listStatements] at inside
  | dead _ _ marks _ outer =>
      rcases Stmt.mem_list_statements_cons.mp inside with same | part | inside
      · exact absurd alive (reach_of_dead marks (.inl same))
      · exact absurd alive (reach_of_dead marks (.inr part))
      · exact outer inside
  | @revived _ head _ _ target marks _ outer =>
      have leaf := Stmt.parts_of_target target
      rcases Stmt.mem_list_statements_cons.mp inside with rfl | ⟨part, member, _⟩ | inside
      · exact ⟨marks, by simp [leaf]⟩
      · simp [leaf] at member
      · exact outer inside
  | live _ marks parts _ inner outer =>
      rcases Stmt.mem_list_statements_cons.mp inside with rfl | ⟨part, member, inside⟩ | inside
      · exact ⟨marks, parts⟩
      · exact inner part member inside
      · exact outer inside

theorem of_dead (settled : Settled targets flow body) {stmt found : Stmt}
    (inside : stmt ∈ Stmt.listStatements body) (dead : stmt.reach ≠ .live)
    (member : found ∈ stmt.statements) : found.reach ≠ .live := by
  induction settled with
  | nil => simp [Stmt.listStatements] at inside
  | @dead _ head rest _ _ marks _ outer =>
      rcases Stmt.mem_list_statements_cons.mp inside with rfl | ⟨part, partMember, inside⟩ | inside
      · rw [marks found member found.reach found.reach_mem_marks]
        exact Flow.reach_not_live _
      · exact reach_of_dead marks
          (.inr ⟨part, partMember, Stmt.mem_statements_of_mem inside member⟩)
      · exact outer inside
  | revived _ target marks _ outer =>
      have leaf := Stmt.parts_of_target target
      rcases Stmt.mem_list_statements_cons.mp inside with rfl | ⟨part, partMember, _⟩ | inside
      · exact absurd (marks _ stmt.reach_mem_marks) dead
      · simp [leaf] at partMember
      · exact outer inside
  | live _ marks _ _ inner outer =>
      rcases Stmt.mem_list_statements_cons.mp inside with rfl | ⟨part, partMember, inside⟩ | inside
      · exact absurd (marks _ stmt.reach_mem_marks) dead
      · exact inner part partMember inside
      · exact outer inside

/-- Control that goes on behind a live statement meets live code, until it leaves the scope. -/
theorem behind_live (settled : Settled targets flow body) (next : Point) {stmt : Stmt}
    {behind : Point} (placed : (stmt, behind) ∈ Stmt.listPlaced next body)
    (alive : stmt.reach = .live) (stays : stmt.isExit = false) :
    behind = next ∨ behind.LiveIn body := by
  induction settled generalizing next behind with
  | nil => simp [Stmt.listPlaced] at placed
  | dead _ _ marks _ outer =>
      rcases Stmt.mem_list_placed_cons.mp placed with ⟨same, _⟩ | ⟨part, member, inside⟩ | inside
      · exact absurd alive (reach_of_dead marks (.inl same))
      · have found := Stmt.mem_statements_of_placed inside
        exact absurd alive (reach_of_dead marks (.inr ⟨part, member, found⟩))
      · exact (outer next inside).imp_right (·.widen fun _ => Stmt.mem_of_rest)
  | @revived _ head rest _ target marks others outer =>
      have leaf := Stmt.parts_of_target target
      rcases Stmt.mem_list_placed_cons.mp placed with ⟨_, rfl⟩ | ⟨part, member, _⟩ | inside
      · exact (others.entry_live rfl next).imp_right (·.widen fun _ => Stmt.mem_of_rest)
      · simp [leaf] at member
      · exact (outer next inside).imp_right (·.widen fun _ => Stmt.mem_of_rest)
  | @live before head rest started marks parts others inner outer =>
      have onward : head.isExit = false →
          Stmt.entry next rest = next ∨ (Stmt.entry next rest).LiveIn (head :: rest) := by
        intro stays
        have open_ : ((before.meet head.start).leave head).dead = false := by
          rw [Flow.leave_of_not_exit _ stays]
          exact started
        exact (others.entry_live open_ next).imp_right (·.widen fun _ => Stmt.mem_of_rest)
      rcases Stmt.mem_list_placed_cons.mp placed with ⟨rfl, rfl⟩ | ⟨part, member, inside⟩ | inside
      · exact onward stays
      · -- A statement with scopes is no exit, so what is behind it is live as well.
        have headStays : head.isExit = false := by
          by_contra exit
          rw [Stmt.parts_of_exit (by simpa using exit)] at member
          simp at member
        rcases inner part member _ inside with rfl | live
        · rcases head.after_cases (Stmt.entry next rest) with same | same
          · rw [same]
            exact onward headStays
          · rw [same]
            exact .inr ⟨head, Stmt.mem_list_statements_cons.mpr (.inl rfl), rfl,
              marks _ head.reach_mem_marks⟩
        · exact .inr (live.widen fun _ => Stmt.mem_of_part member)
      · exact (outer next inside).imp_right (·.widen fun _ => Stmt.mem_of_rest)

theorem label_live (settled : Settled targets flow body) {start : Nat}
    (label : start ∈ Stmt.labelStarts body) (targeted : start ∈ targets) :
    (Point.before start).LiveIn body := by
  obtain ⟨stmt, member, found⟩ := Stmt.mem_label_starts.mp label
  have same := Stmt.start_of_label_start found
  have isTarget : stmt.isTarget targets = true := by
    cases stmt <;> simp_all [Stmt.labelStart?, Stmt.isTarget]
  refine ⟨stmt, Stmt.subset_list_statements member, by rw [same], ?_⟩
  clear label
  induction settled with
  | nil => simp at member
  | dead _ ordinary _ _ outer =>
      rcases List.mem_cons.mp member with rfl | member
      · simp [isTarget] at ordinary
      · exact outer member
  | revived _ _ marks _ outer =>
      rcases List.mem_cons.mp member with rfl | member
      · exact marks _ stmt.reach_mem_marks
      · exact outer member
  | live _ marks _ _ _ outer =>
      rcases List.mem_cons.mp member with rfl | member
      · exact marks _ stmt.reach_mem_marks
      · exact outer member

theorem jump_live (settled : Settled targets flow body) {around : List Nat}
    (bound : Bound around body)
    (targeted : ∀ stmt ∈ Stmt.listStatements body, ∀ target, stmt.target? = some target →
      target.label ∈ targets)
    {stmt : Stmt} (inside : stmt ∈ Stmt.listStatements body) (alive : stmt.reach = .live)
    {target : JumpTarget} (goes : stmt.target? = some target) :
    target.label ∈ around ∨ (Point.before target.label).LiveIn body := by
  induction settled generalizing around with
  | nil => simp [Stmt.listStatements] at inside
  | dead _ _ marks _ outer =>
      cases bound with
      | cons _ _ others =>
          rcases Stmt.mem_list_statements_cons.mp inside with same | part | inside
          · exact absurd alive (reach_of_dead marks (.inl same))
          · exact absurd alive (reach_of_dead marks (.inr part))
          · have tail := outer others (fun stmt found => targeted stmt (Stmt.mem_of_rest found)) inside
            exact tail.imp_right (·.widen fun _ => Stmt.mem_of_rest)
  | @revived _ head _ _ isTarget _ _ outer =>
      cases bound with
      | cons own _ others =>
          have leaf := Stmt.parts_of_target isTarget
          rcases Stmt.mem_list_statements_cons.mp inside with rfl | ⟨part, member, _⟩ | inside
          · simp [Stmt.target_of_is_target isTarget] at goes
          · simp [leaf] at member
          · have tail := outer others (fun stmt found => targeted stmt (Stmt.mem_of_rest found)) inside
            exact tail.imp_right (·.widen fun _ => Stmt.mem_of_rest)
  | @live _ head rest _ _ settledParts _ inner outer =>
      cases bound with
      | cons own parts others =>
          rcases Stmt.mem_list_statements_cons.mp inside with rfl | ⟨part, member, inside⟩ | inside
          · exact .inl (own target goes).2
          · have partTargeted : ∀ stmt ∈ Stmt.listStatements part.body, ∀ target,
                stmt.target? = some target → target.label ∈ targets := fun stmt found =>
              targeted stmt (Stmt.mem_of_part member found)
            rcases inner part member (parts part member) partTargeted inside with label | live
            · rcases List.mem_append.mp label with label | label
              · have jumped := partTargeted stmt inside target goes
                have live := (settledParts part member).label_live label jumped
                exact .inr (live.widen fun _ => Stmt.mem_of_part member)
              · exact .inl label
            · exact .inr (live.widen fun _ => Stmt.mem_of_part member)
          · have tail := outer others (fun stmt found => targeted stmt (Stmt.mem_of_rest found)) inside
            exact tail.imp_right (·.widen fun _ => Stmt.mem_of_rest)

theorem ways_live (settled : Settled targets {} body)
    (bound : Bound (Stmt.labelStarts body) body)
    (targeted : ∀ stmt ∈ Stmt.listStatements body, ∀ target, stmt.target? = some target →
      target.label ∈ targets)
    {past : Bool} {stmt : Stmt} {next point : Point}
    (placed : (stmt, next) ∈ Stmt.listPlaced .finish body) (alive : stmt.reach = .live)
    (way : point ∈ stmt.ways past next) : point = .finish ∨ point.LiveIn body := by
  have inside := Stmt.mem_statements_of_placed placed
  rcases Stmt.ways_cases way with ⟨target, goes, rfl⟩ | ⟨stays, onward⟩
  · rcases settled.jump_live bound targeted inside alive goes with label | live
    · exact .inr (settled.label_live label (targeted stmt inside target goes))
    · exact .inr live
  · have behind := settled.behind_live .finish placed alive stays
    rcases onward with rfl | ⟨part, member, rfl⟩
    · exact behind
    · have inner := (settled.of_live inside alive).2 part member
      rcases inner.entry_live rfl (stmt.after next) with same | live
      · rw [same]
        rcases stmt.after_cases next with same | same
        · rwa [same]
        · rw [same]
          exact .inr ⟨stmt, inside, rfl, alive⟩
      · refine .inr (live.widen ?_)
        intro found foundInside
        exact Stmt.mem_statements_of_part inside member foundInside

/-- Control that starts at the first statement of a settled body never meets dead code. -/
theorem reaches_live (settled : Settled targets {} body)
    (bound : Bound (Stmt.labelStarts body) body)
    (targeted : ∀ stmt ∈ Stmt.listStatements body, ∀ target, stmt.target? = some target →
      target.label ∈ targets)
    (distinct : (Stmt.listStarts body).Nodup) {past : Bool} {point : Point}
    (reached : Stmt.Reaches past body point) : point = .finish ∨ point.LiveIn body := by
  induction reached with
  | refl => exact settled.entry_live rfl .finish
  | @tail middle point _ step induction =>
      obtain ⟨stmt, next, placed, rfl, way⟩ := Stmt.steps_iff.mp step
      obtain ⟨found, inside, same, alive⟩ : (Point.before stmt.start).LiveIn body := by
        simpa using induction
      -- Starts are distinct, so the edge comes from the very statement known to be live.
      have here := Stmt.mem_statements_of_placed placed
      have equal : found = stmt :=
        Stmt.eq_of_start distinct inside here (Point.before.inj same).symm
      subst equal
      exact settled.ways_live bound targeted placed alive way

end Settled

end Lsl
