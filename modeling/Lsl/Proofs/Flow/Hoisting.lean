import Lsl.Compilation
import Lsl.Proofs.Checking.Acceptance
import Lsl.Proofs.Checking.Spelling
import Lsl.Proofs.Flow.Liveness

/-!
Declarations that jumps skip. A dead declaration moves to the top of its scope if the label of some
jump is still to come there. Only jumps that stand directly in the scope are looked at, so a jump
out of a scope inside it is missed.
-/

set_option autoImplicit false

namespace Lsl

namespace Stmt

section

variable {stmt : Stmt} {start : Nat} (declares : stmt.declaration? = some start)

include declares

theorem target_of_declaration : stmt.target? = none := by
  cases stmt <;> simp_all [declaration?, target?]

theorem label_start_of_declaration : stmt.labelStart? = none := by
  cases stmt <;> simp_all [declaration?, labelStart?]

theorem is_target_of_declaration (targets : List Nat) : stmt.isTarget targets = false := by
  cases stmt <;> simp_all [declaration?, isTarget]

end

end Stmt

theorem Flow.mem_pending_leave {flow : Flow} {stmt : Stmt} {label : Nat} :
    label ∈ (flow.leave stmt).pending ↔
      label ∈ flow.pending ∨
        ∃ target, stmt.target? = some target ∧ target.label = label ∧ stmt.start < label ∧
          target.inReach = true := by
  cases stmt with
  | jump info name found =>
      cases found with
      | none => simp [leave, Stmt.target?]
      | some target =>
          simp only [leave, Stmt.target?, Stmt.start, Stmt.span]
          split_ifs with forward
          · simp only [List.mem_cons, Option.some.injEq, exists_eq_left']
            grind
          · simp only [Option.some.injEq, exists_eq_left']
            grind
  | _ => simp [leave, Stmt.target?]

@[simp] theorem Flow.pending_extend (flow : Flow) (span : Span) :
    (flow.extend span).pending = flow.pending := by
  unfold extend
  split <;> rfl

theorem Flow.mem_pending_meet {flow : Flow} {start label : Nat} :
    label ∈ (flow.meet start).pending ↔ label ∈ flow.pending ∧ label ≠ start := by
  simp [meet]

theorem Flow.reach_eq_jumped_over {flow : Flow} :
    flow.reach = .jumpedOver ↔ ∃ label, label ∈ flow.pending := by
  unfold reach
  cases flow.pending with
  | nil => simp
  | cons label rest => simp

theorem Stmt.start_lt_of_order {head : Stmt} {rest : List Stmt}
    (order : (Stmt.listStarts (head :: rest)).Pairwise (· < ·)) {stmt : Stmt}
    (member : stmt ∈ rest) : head.start < stmt.start := by
  have later : stmt.start ∈ Stmt.listStarts rest :=
    List.mem_map_of_mem (Stmt.subset_list_statements member)
  exact Stmt.lt_of_order order (Stmt.mem_list_starts_cons.mpr (.inl rfl)) later

/-- A live jump that stands directly among the statements goes to a label behind the place. -/
def Stmt.Skips (front : List Stmt) (place : Nat) : Prop :=
  ∃ jump ∈ front, jump.reach = .live ∧
    ∃ target, jump.target? = some target ∧ place < target.label

/-- A label behind the place is to come: from the start, or by a jump among the statements. -/
def Flow.Overtakes (flow : Flow) (front : List Stmt) (place : Nat) : Prop :=
  (∃ label ∈ flow.pending, place < label) ∨ Stmt.Skips front place

/-- The labels to come past a statement: those from before, and that of a live jump forward. -/
def Flow.Passes (flow : Flow) (stmt : Stmt) (after : Flow) : Prop :=
  ∀ label, label ∈ after.pending ↔
    (label ∈ flow.pending ∧ label ≠ stmt.start) ∨
      (stmt.reach = .live ∧
        ∃ target, stmt.target? = some target ∧ target.label = label ∧ stmt.start < label)

theorem Flow.Passes.overtakes {flow after : Flow} {head : Stmt} (passes : flow.Passes head after)
    {front : List Stmt} {place : Nat} (inFront : head.start < place) :
    after.Overtakes front place ↔ flow.Overtakes (head :: front) place := by
  constructor
  · rintro (⟨label, member, later⟩ | ⟨jump, member, others⟩)
    · rcases (passes label).mp member with ⟨known, _⟩ | ⟨alive, target, goes, rfl, _⟩
      · exact .inl ⟨label, known, later⟩
      · exact .inr ⟨head, List.mem_cons_self, alive, target, goes, later⟩
    · exact .inr ⟨jump, List.mem_cons_of_mem _ member, others⟩
  · rintro (⟨label, member, later⟩ | ⟨jump, member, alive, target, goes, later⟩)
    · have different : label ≠ head.start := by omega
      exact .inl ⟨label, (passes label).mpr (.inl ⟨member, different⟩), later⟩
    · rcases List.mem_cons.mp member with rfl | member
      · have forward : jump.start < target.label := by omega
        exact .inl ⟨target.label, (passes _).mpr (.inr ⟨alive, target, goes, rfl, forward⟩), later⟩
      · exact .inr ⟨jump, member, alive, target, goes, later⟩

/-- What settling statements in a row does with the labels to come at the first of them. -/
theorem Settled.passes {targets : List Nat} {flow : Flow} {head : Stmt} {rest : List Stmt}
    (settled : Settled targets flow (head :: rest))
    (near : ∀ target, head.target? = some target → target.inReach = true) :
    ∃ after, Settled targets after rest ∧ flow.Passes head after := by
  cases settled with
  | dead _ _ marks others =>
      have gone : head.reach ≠ .live := reach_of_dead marks (.inl rfl)
      exact ⟨_, others, by simp [Flow.Passes, Flow.mem_pending_meet, gone]⟩
  | revived _ target _ others =>
      have plain : head.target? = none := Stmt.target_of_is_target target
      exact ⟨_, others, by simp [Flow.Passes, Flow.mem_pending_meet, plain]⟩
  | live _ marks _ others =>
      have alive := marks _ head.reach_mem_marks
      refine ⟨_, others, fun label => ?_⟩
      rw [Flow.mem_pending_leave, Flow.mem_pending_meet]
      apply or_congr Iff.rfl
      constructor
      · intro ⟨target, goes, same, later, _⟩
        exact ⟨alive, target, goes, same, later⟩
      · intro ⟨_, target, goes, same, later⟩
        exact ⟨target, goes, same, later, near target goes⟩

def Stmt.Around (front : List Stmt) (place label : Nat) : Prop :=
  place < label ∨ label ∈ front.map Stmt.start

theorem Stmt.Around.rest {head : Stmt} {front : List Stmt} {place label : Nat}
    (around : Around (head :: front) place label) (different : label ≠ head.start) :
    Around front place label := by
  simpa [Around, different] using around

/-- The mark of a dead declaration tells whether a label is still to come behind it: one that was
to come from the start, or that of a jump in front of it. -/
theorem Settled.reach_of_pending {targets : List Nat} {flow : Flow} {front back : List Stmt}
    {declaration : Stmt} (settled : Settled targets flow (front ++ declaration :: back))
    (order : (Stmt.listStarts (front ++ declaration :: back)).Pairwise (· < ·))
    (ordinary : declaration.isTarget targets = false)
    (coming : ∀ label ∈ flow.pending, Stmt.Around front declaration.start label)
    (bound : ∀ jump ∈ front, ∀ target, jump.target? = some target → target.inReach = true ∧
      (jump.start < target.label → Stmt.Around front declaration.start target.label))
    (dead : declaration.reach ≠ .live) :
    declaration.reach = .jumpedOver ↔ flow.Overtakes front declaration.start := by
  induction front generalizing flow with
  | nil =>
      cases settled with
      | dead _ _ marks _ =>
          have mark := marks declaration declaration.mem_statements_self _
            declaration.reach_mem_marks
          rw [mark, Flow.reach_eq_jumped_over]
          constructor
          · intro ⟨label, member⟩
            have known := Flow.mem_pending_meet.mp member
            exact .inl ⟨label, known.1, by simpa [Stmt.Around] using coming label known.1⟩
          · rintro (⟨label, member, later⟩ | ⟨jump, member, _⟩)
            · exact ⟨label, Flow.mem_pending_meet.mpr ⟨member, Nat.ne_of_gt later⟩⟩
            · simp at member
      | revived _ target => simp [ordinary] at target
      | live _ marks => exact absurd (marks _ declaration.reach_mem_marks) dead
  | cons head front induction =>
      rw [List.cons_append] at settled order
      have inFront : head.start < declaration.start :=
        Stmt.start_lt_of_order order (List.mem_append_right _ List.mem_cons_self)
      have own := bound head List.mem_cons_self
      obtain ⟨after, rest, passes⟩ := settled.passes fun target goes => (own target goes).1
      have comingRest : ∀ label ∈ after.pending, Stmt.Around front declaration.start label := by
        intro label member
        rcases (passes label).mp member with ⟨known, different⟩ | ⟨_, target, goes, rfl, later⟩
        · exact (coming label known).rest different
        · exact ((own target goes).2 later).rest (Nat.ne_of_gt later)
      have boundRest : ∀ jump ∈ front, ∀ target, jump.target? = some target →
          target.inReach = true ∧
            (jump.start < target.label → Stmt.Around front declaration.start target.label) := by
        intro jump member target goes
        have less := Stmt.start_lt_of_order order (List.mem_append_left _ member)
        have near := bound jump (List.mem_cons_of_mem _ member) target goes
        exact ⟨near.1, fun later => (near.2 later).rest (by omega)⟩
      rw [induction rest (Stmt.order_rest order) comingRest boundRest, passes.overtakes inFront]

theorem not_prunable {library : Library} {settings : Settings} {script : Script} {body : CodeScope}
    (recorded : script.uses = script.boundUses) (inside : body ∈ script.bodies) {stmt : Stmt}
    (member : stmt ∈ Stmt.listStatements body.body)
    {start : Nat} (refers : start ∈ stmt.locals) (decl : Variable) :
    isPrunable ⟨library, settings, script.uses⟩ start decl = false := by
  obtain ⟨use, made, same⟩ := Stmt.locals_used refers
  have used : Use.isUsed script.uses start = true := by
    refine List.any_eq_true.mpr ⟨use, ?_, by simpa using same⟩
    rw [recorded]
    exact Script.uses_of_body inside (Stmt.uses_subset member made)
  simp [isPrunable, used]

namespace CodeScope.Resolved

variable {body scope : CodeScope} {front back : List Stmt} {declaration : Stmt}

theorem order_of_scope (resolved : body.Resolved) (inside : scope ∈ body.scopes) :
    (Stmt.listStarts scope.body).Pairwise (· < ·) := by
  rcases List.mem_cons.mp inside with rfl | inside
  · exact resolved.order
  · exact Stmt.order_scope resolved.order inside

/-- The jumps of a scope that go forward from in front of a declaration go past it, or to a label
that stands in front of it as well. -/
theorem bound_of_split (resolved : body.Resolved) (inside : scope ∈ body.scopes)
    (split : scope.body = front ++ declaration :: back)
    (plain : declaration.labelStart? = none) :
    ∀ jump ∈ front, ∀ target, jump.target? = some target → target.inReach = true ∧
      (jump.start < target.label → Stmt.Around front declaration.start target.label) := by
  obtain ⟨around, bound, clear⟩ : ∃ around, Bound around scope.body ∧
      ∀ label ∈ around, Stmt.Clear scope.body label := by
    rcases List.mem_cons.mp inside with rfl | inside
    · exact ⟨_, resolved.bound, fun label known => .inl known⟩
    · exact resolved.bound.scope resolved.order (fun label known => .inl known) inside
  have starts : ∀ {stmt : Stmt}, stmt ∈ scope.body → stmt.start ∈ Stmt.listStarts scope.body :=
    fun member => List.mem_map_of_mem (Stmt.subset_list_statements member)
  have order := resolved.order_of_scope inside
  intro jump member target goes
  have jumpInside : jump ∈ scope.body := split ▸ List.mem_append_left _ member
  have placed : declaration ∈ scope.body :=
    split ▸ List.mem_append_right _ List.mem_cons_self
  obtain ⟨reach, known⟩ := bound.direct jumpInside goes
  refine ⟨reach, fun later => ?_⟩
  rcases clear _ known with direct | before | behind
  · obtain ⟨label, labelMember, found⟩ := Stmt.mem_label_starts.mp direct
    rw [← Stmt.start_of_label_start found]
    rw [split] at labelMember order
    rcases List.mem_append.mp labelMember with labelMember | labelMember
    · exact .inr (List.mem_map_of_mem labelMember)
    · rcases List.mem_cons.mp labelMember with rfl | labelMember
      · simp [plain] at found
      · rw [Stmt.listStarts, Stmt.list_statements_append, List.map_append] at order
        exact .inl (Stmt.start_lt_of_order (List.pairwise_append.mp order).2.1 labelMember)
  · have less := before _ (starts jumpInside)
    omega
  · exact .inl (behind _ (starts placed))

theorem reach_of_split (resolved : body.Resolved) (inside : scope ∈ body.scopes)
    (split : scope.body = front ++ declaration :: back) {start : Nat}
    (declares : declaration.declaration? = some start) (dead : declaration.reach ≠ .live)
    {user : Stmt} (member : user ∈ Stmt.listStatements body.body) (alive : user.reach = .live)
    (refers : start ∈ user.locals) :
    declaration.reach = .jumpedOver ↔ Stmt.Skips front start := by
  obtain ⟨targets, settled, _⟩ := resolved.settled
  have later := resolved.named.behind resolved.distinct (CodeScope.behind_of_split inside split)
    declares (by simp) member refers
  have within : user ∈ Stmt.listStatements scope.body := by
    rw [split, Stmt.list_statements_append]
    exact List.mem_append_right _ (Stmt.mem_of_rest later)
  have order := resolved.order_of_scope inside
  have marks : Settled targets {} scope.body := by
    rcases List.mem_cons.mp inside with rfl | inside
    · exact settled
    · exact (settled.scope_or_dead inside).resolve_right fun dead => dead.2 user within alive
  rw [split] at order marks
  have bound := resolved.bound_of_split inside split (Stmt.label_start_of_declaration declares)
  have mark := marks.reach_of_pending order (Stmt.is_target_of_declaration declares targets)
    (by simp) bound dead
  rw [Stmt.start_of_declaration declares] at mark
  simpa [Flow.Overtakes] using mark

end CodeScope.Resolved

/-- A local variable that live code refers to. If its declaration is dead, it counts as jumped over
exactly if a live jump directly in its scope, in front of it, goes to a label behind it; and it is
declared in the generated code exactly if it is live or such a jump is there. -/
theorem declared_iff_skipped {library : Library} {source : String}
    (accepted : Accepted library source) {body scope : CodeScope}
    (inside : body ∈ (checkSource library source).value.bodies) (within : scope ∈ body.scopes)
    {front back : List Stmt} {info : StmtInfo} {decl : Variable}
    (split : scope.body = front ++ .declare info decl :: back) {user : Stmt}
    (member : user ∈ Stmt.listStatements body.body) (alive : user.reach = .live)
    (refers : info.span.start.offset ∈ user.locals) (settings : Settings)
    (inHandler isLast : Bool) :
    let manner : Manner := ⟨library, settings, (checkSource library source).value.uses⟩
    (info.reach ≠ .live →
      (info.reach = .jumpedOver ↔ Stmt.Skips front info.span.start.offset)) ∧
      ((∃ type value, .declare type (localName scope.info.id decl.name) value ∈
          hoistedCode manner scope.info.id (.declare info decl) ++
            (Stmt.declare info decl).code manner inHandler scope.info.id isLast) ↔
        info.reach = .live ∨ Stmt.Skips front info.span.start.offset) := by
  intro manner
  have marked : info.reach ≠ .live →
      (info.reach = .jumpedOver ↔ Stmt.Skips front info.span.start.offset) := fun dead =>
    (accepted.resolved inside).reach_of_split within split rfl dead member alive refers
  have kept : isPrunable manner info.span.start.offset decl = false :=
    not_prunable accepted.recorded inside member refers decl
  refine ⟨marked, ?_⟩
  simp only [hoistedCode, Stmt.code, isSkipped, Stmt.reach, declarationCode, kept]
  by_cases live : info.reach = .live
  · simp [live]
  · have mark := marked live
    by_cases jumped : info.reach = .jumpedOver
    · simp [jumped, mark.mp jumped]
    · simp [live, jumped, mt mark.mpr jumped]

/-- A jump in the scope of a declaration makes the declaration count as jumped over. -/
theorem skipped_declaration_hoisted :
    let source := "default \x7b state_entry() \x7b jump end; integer x = 1; @end; x = 2; \x7d \x7d"
    Accepted .minimal source ∧
      ∃ body ∈ (checkSource .minimal source).value.bodies, ∃ stmt ∈ body.body,
        stmt.declaration? = some 36 ∧ stmt.reach = .jumpedOver ∧ Stmt.Skips body.body 36 := by
  intro source
  have spelled : source = String.ofList _ := rfl
  have accepted : Accepted .minimal source := by
    simp only [Accepted, check_source_spelled spelled]
    decide +kernel
  have found : ∃ body ∈ (checkSource .minimal source).value.bodies, ∃ stmt ∈ body.body,
      stmt.declaration? = some 36 ∧ stmt.reach = .jumpedOver ∧
        ∃ user ∈ Stmt.listStatements body.body, user.reach = .live ∧ 36 ∈ user.locals := by
    simp only [check_source_spelled spelled]
    decide +kernel
  obtain ⟨body, inside, stmt, placed, declares, jumped, user, member, alive, refers⟩ := found
  refine ⟨accepted, body, inside, stmt, placed, declares, jumped, ?_⟩
  obtain ⟨front, back, split⟩ := List.append_of_mem placed
  cases stmt with
  | declare info decl =>
      have start : info.span.start.offset = 36 := Option.some.inj declares
      rw [← start] at refers ⊢
      have dead : info.reach ≠ .live := by simp [show info.reach = .jumpedOver from jumped]
      have settled := declared_iff_skipped accepted inside List.mem_cons_self split member alive
        refers default true false
      obtain ⟨jump, jumpMember, goes⟩ := (settled.1 dead).mp jumped
      exact ⟨jump, split ▸ List.mem_append_left _ jumpMember, goes⟩
  | _ => simp [Stmt.declaration?] at declares

/-- A jump out of a branch skips a declaration that live code refers to, and the declaration does not
count as jumped over. -/
theorem skipped_declaration_lost :
    let source := "default \x7b state_entry() \x7b integer i = 1; if (i) \x7b jump end; \x7d return; " ++
      "integer x = 1; @end; i = x; \x7d \x7d"
    Accepted .minimal source ∧
      ∃ body ∈ (checkSource .minimal source).value.bodies,
        ∃ stmt ∈ Stmt.listStatements body.body, stmt.declaration? = some 70 ∧
          stmt.reach = .dead ∧
          ∃ user ∈ Stmt.listStatements body.body, user.reach = .live ∧ 70 ∈ user.locals := by
  intro source
  have spelled : source = String.ofList _ := String.ofList_append.symm
  simp only [Accepted, check_source_spelled spelled]
  decide +kernel

end Lsl
