import Lsl.Generation.Statement
import Lsl.Proofs.Checking.Acceptance
import Lsl.Proofs.Checking.Spelling
import Lsl.Proofs.Flow.Liveness

/-!
What control can reach. No statement that it can reach is left out as dead: the marks are read off
scope by scope, but they hold for paths through any number of scopes, since no jump leads into a scope
from outside. A function returns a value if some statement of its body returns on all its own ways.
Control that follows no jump cannot get past such a statement; but a jump from in front of it to a
label behind it can, and those jumps are the only way to the end of the body.
-/

set_option autoImplicit false

namespace Lsl

theorem Settled.around_live {targets : List Nat} {flow : Flow} {body : List Stmt}
    (settled : Settled targets flow body) {outer stmt : Stmt}
    (outerInside : outer ∈ Stmt.listStatements body) (inside : stmt ∈ outer.statements)
    (alive : stmt.reach = .live) : outer.reach = .live := by
  induction settled with
  | nil => simp [Stmt.listStatements] at outerInside
  | @dead _ head rest _ _ marks _ induction =>
      rcases Stmt.mem_list_statements_cons.mp outerInside with rfl | ⟨part, member, found⟩ | found
      · have mark := marks stmt inside _ stmt.reach_mem_marks
        exact absurd (mark.symm.trans alive) (Flow.reach_not_live _)
      · -- Everything inside a dead statement is dead.
        have deeper : stmt ∈ head.statements := by
          rw [Stmt.statements_eq, List.mem_cons, List.mem_flatMap]
          exact .inr ⟨part, member, Stmt.mem_statements_of_mem found inside⟩
        have mark := marks stmt deeper _ stmt.reach_mem_marks
        exact absurd (mark.symm.trans alive) (Flow.reach_not_live _)
      · exact induction found
  | @revived _ head rest _ target marks _ induction =>
      have leaf := Stmt.parts_of_target target
      rcases Stmt.mem_list_statements_cons.mp outerInside with rfl | ⟨part, member, _⟩ | found
      · exact marks _ outer.reach_mem_marks
      · simp [leaf] at member
      · exact induction found
  | @live _ head rest _ marks parts _ inner induction =>
      rcases Stmt.mem_list_statements_cons.mp outerInside with rfl | ⟨part, member, found⟩ | found
      · exact marks _ outer.reach_mem_marks
      · exact inner part member found
      · exact induction found

/-- Neither a statement that control can reach nor any statement around it is marked as dead, and
so the code of none of them is left out. -/
theorem reachable_statement_live {library : Library} {source : String}
    (accepted : Accepted library source) {body : CodeScope}
    (inside : body ∈ (checkSource library source).value.bodies) {past : Bool} {stmt outer : Stmt}
    (member : stmt ∈ Stmt.listStatements body.body)
    (reached : Stmt.Reaches past body.body (.before stmt.start))
    (outerMember : outer ∈ Stmt.listStatements body.body) (around : stmt ∈ outer.statements) :
    (∀ mark ∈ outer.marks, mark = .live) ∧ ∀ manner, isSkipped manner outer = false := by
  have resolved := accepted.resolved inside
  obtain ⟨targets, settled, targeted⟩ := resolved.settled
  have point := settled.reaches_live resolved.bound targeted resolved.distinct reached
  obtain ⟨found, foundInside, same, alive⟩ : (Point.before stmt.start).LiveIn body.body := by
    simpa using point
  have equal : found = stmt :=
    Stmt.eq_of_start resolved.distinct foundInside member (Point.before.inj same).symm
  subst equal
  have outerAlive := settled.around_live outerMember around alive
  refine ⟨(settled.of_live outerMember outerAlive).1, ?_⟩
  intro manner
  simp [isSkipped, outerAlive]

/-- A label behind a return is live, as a jump out of a branch goes to it. -/
theorem jumped_label_live :
    let source := "default \x7b state_entry() \x7b if (1) jump end; return; @end; \x7d \x7d"
    Accepted .minimal source ∧
      ∃ body ∈ (checkSource .minimal source).value.bodies,
        ∃ stmt ∈ Stmt.listStatements body.body, stmt.labelStart? = some 51 ∧
          (∀ mark ∈ stmt.marks, mark = .live) ∧ ∀ manner, isSkipped manner stmt = false := by
  intro source
  have spelled : source = String.ofList _ := rfl
  have accepted : Accepted .minimal source := by
    simp only [Accepted, check_source_spelled spelled]
    decide +kernel
  have path : ∃ body ∈ (checkSource .minimal source).value.bodies,
      ∃ stmt ∈ Stmt.listStatements body.body, stmt.labelStart? = some 51 ∧
        Stmt.entry .finish body.body = .before 26 ∧
        Stmt.Steps false body.body (.before 26) (.before 33) ∧
        Stmt.Steps false body.body (.before 33) (.before stmt.start) := by
    simp only [check_source_spelled spelled]
    decide +kernel
  obtain ⟨body, inside, stmt, member, label, entry, first, second⟩ := path
  have reached : Stmt.Reaches false body.body (.before stmt.start) := by
    rw [Stmt.Reaches, entry]
    exact .tail (.tail .refl first) second
  exact ⟨accepted, body, inside, stmt, member, label,
    reachable_statement_live accepted inside member reached member stmt.mem_statements_self⟩

theorem Alternatives.returns_cases {rest : Alternatives} (returns : rest.returns = true) :
    (∀ part ∈ rest.parts, Stmt.anyReturns part.body = true) ∧
      ∀ next, ∀ point ∈ rest.ways false next,
        ∃ part ∈ rest.parts, point = Stmt.entry next part.body := by
  match rest with
  | .done => simp [Alternatives.returns] at returns
  | .elseIf _ _ scope body rest =>
      simp only [Alternatives.returns, Bool.and_eq_true] at returns
      obtain ⟨parts, ways⟩ := Alternatives.returns_cases returns.2
      refine ⟨?_, ?_⟩
      · intro part member
        rcases List.mem_cons.mp member with rfl | member
        · exact returns.1
        · exact parts part member
      · intro next point way
        rcases List.mem_cons.mp way with rfl | way
        · exact ⟨_, List.mem_cons_self, rfl⟩
        · obtain ⟨part, member, same⟩ := ways next point way
          exact ⟨part, List.mem_cons_of_mem _ member, same⟩
  | .otherwise _ scope body =>
      refine ⟨?_, ?_⟩
      · intro part member
        obtain rfl := List.mem_singleton.mp member
        exact returns
      · intro next point way
        exact ⟨_, List.mem_cons_self, by simpa [Alternatives.ways] using way⟩

namespace Stmt

/-- A statement that returns leads into its own scopes at most, and each of them returns. -/
theorem returns_cases {stmt : Stmt} (returns : stmt.returns = true) :
    (∀ part ∈ stmt.parts, anyReturns part.body = true) ∧
      ∀ next, stmt.after next = next ∧ ∀ point ∈ stmt.ways false next,
        ∃ part ∈ stmt.parts, point = entry next part.body := by
  cases stmt with
  | giveBack info value => simp [parts, after, ways]
  | block scope body =>
      simp only [Stmt.returns, Bool.and_eq_true] at returns
      simpa [parts, after, ways] using returns.2
  | branch info first condition scope body rest =>
      simp only [Stmt.returns, Bool.and_eq_true] at returns
      obtain ⟨⟨_, own⟩, others⟩ := returns
      obtain ⟨restParts, restWays⟩ := Alternatives.returns_cases others
      refine ⟨?_, fun next => ⟨rfl, ?_⟩⟩
      · intro part member
        rcases List.mem_cons.mp member with rfl | member
        · exact own
        · exact restParts part member
      · intro point way
        rcases List.mem_cons.mp way with rfl | way
        · exact ⟨_, List.mem_cons_self, rfl⟩
        · obtain ⟨part, member, same⟩ := restWays next point way
          exact ⟨part, List.mem_cons_of_mem _ member, same⟩
  | _ => simp [Stmt.returns] at returns

/-- Starts of statements among which control stays that enters the body and follows no jump. -/
structure Sealed (body : List Stmt) (next : Point) (region : List Nat) : Prop where
  inside : ∀ start ∈ region, start ∈ listStarts body
  entered : ∃ start ∈ region, entry next body = .before start
  kept : ∀ stmt behind, (stmt, behind) ∈ listPlaced next body → stmt.start ∈ region →
    stmt.target? = none → ∀ point ∈ stmt.ways false behind, ∃ start ∈ region, point = .before start

theorem start_of_placed {stmt : Stmt} {behind next : Point} {body : List Stmt}
    (placed : (stmt, behind) ∈ listPlaced next body) : stmt.start ∈ listStarts body :=
  List.mem_map_of_mem (mem_statements_of_placed placed)

theorem sealed_head {head : Stmt} {rest : List Stmt} (distinct : Distinct (head :: rest))
    (returns : head.returns = true) (next : Point) (regions : CodeScope → List Nat)
    (parts : ∀ part ∈ head.parts, Sealed part.body (entry next rest) (regions part)) :
    Sealed (head :: rest) next (head.start :: head.parts.flatMap regions) := by
  obtain ⟨_, leads⟩ := returns_cases returns
  obtain ⟨straight, ways⟩ := leads (entry next rest)
  refine ⟨?_, ⟨head.start, List.mem_cons_self, rfl⟩, ?_⟩
  · intro start member
    rw [mem_list_starts_cons]
    rcases List.mem_cons.mp member with same | member
    · exact .inl same
    · obtain ⟨part, partMember, found⟩ := List.mem_flatMap.mp member
      exact .inr (.inl ⟨part, partMember, (parts part partMember).inside start found⟩)
  · intro stmt behind placed within falls point way
    rcases mem_list_placed_cons.mp placed with ⟨rfl, rfl⟩ | ⟨part, member, placed⟩ | placed
    · obtain ⟨part, member, rfl⟩ := ways point way
      obtain ⟨start, found, same⟩ := (parts part member).entered
      exact ⟨start, List.mem_cons_of_mem _ (List.mem_flatMap.mpr ⟨part, member, found⟩), same⟩
    · rw [straight] at placed
      have here := start_of_placed placed
      rcases List.mem_cons.mp within with same | within
      · exact absurd (same ▸ here) (distinct.head_not_part member)
      · obtain ⟨other, otherMember, found⟩ := List.mem_flatMap.mp within
        have there := (parts other otherMember).inside _ found
        obtain rfl := distinct.part_unique member otherMember here there
        obtain ⟨start, kept, same⟩ := (parts part member).kept stmt behind placed found falls point way
        exact ⟨start, List.mem_cons_of_mem _ (List.mem_flatMap.mpr ⟨part, member, kept⟩), same⟩
    · have here := start_of_placed placed
      rcases List.mem_cons.mp within with same | within
      · exact absurd (same ▸ here) distinct.head_not_rest
      · obtain ⟨part, member, found⟩ := List.mem_flatMap.mp within
        exact absurd here (distinct.part_not_rest member ((parts part member).inside _ found))

theorem sealed_rest {head : Stmt} {rest : List Stmt} (distinct : Distinct (head :: rest))
    {next : Point} {region : List Nat} (behind : Sealed rest next region) :
    Sealed (head :: rest) next (listStarts [head] ++ region) := by
  have enters : head.start ∈ listStarts [head] := mem_list_starts_cons.mpr (.inl rfl)
  refine ⟨?_, ⟨head.start, List.mem_append_left _ enters, rfl⟩, ?_⟩
  · intro start member
    rcases List.mem_append.mp member with member | member
    · exact starts_of_single member
    · exact mem_list_starts_cons.mpr (.inr (.inr (behind.inside start member)))
  · intro stmt after placed within falls point way
    obtain ⟨first, firstMember, enters⟩ := behind.entered
    by_cases later : (stmt, after) ∈ listPlaced next rest
    · have here := start_of_placed later
      rcases List.mem_append.mp within with own | within
      · exact absurd here (distinct.single_not_rest own)
      · obtain ⟨start, kept, same⟩ := behind.kept stmt after later within falls point way
        exact ⟨start, List.mem_append_right _ kept, same⟩
    · -- From the statement in front control goes on inside it or to what is behind it.
      have own : (stmt, after) ∈ listPlaced (entry next rest) [head] := by
        have either := List.mem_append.mp placed
        simpa [listPlaced, entry] using either.resolve_right later
      rcases flow_stays own falls way with rfl | ⟨start, found, same⟩
      · exact ⟨first, List.mem_append_right _ firstMember, enters⟩
      · exact ⟨start, List.mem_append_left _ found, same⟩

theorem sealed_of_returns {body : List Stmt} (distinct : Distinct body)
    (returns : anyReturns body = true) (next : Point) : ∃ region, Sealed body next region := by
  induction body using Stmt.list_induction generalizing next with
  | nil => simp [anyReturns] at returns
  | cons head rest inner outer =>
      by_cases here : head.returns = true
      · have each : ∀ part ∈ head.parts, ∃ region, Sealed part.body (entry next rest) region :=
          fun part member =>
            inner part member (distinct.part member) ((returns_cases here).1 part member) _
        choose! regions parts using each
        exact ⟨_, sealed_head distinct here next regions parts⟩
      · have later : anyReturns rest = true := by simpa [anyReturns, here] using returns
        obtain ⟨region, behind⟩ := outer distinct.rest later next
        exact ⟨_, sealed_rest distinct behind⟩

theorem flow_ne_finish {body : List Stmt} (distinct : Distinct body)
    (returns : anyReturns body = true) {point : Point}
    (flows : Relation.ReflTransGen (Flows false body) (entry .finish body) point) :
    point ≠ .finish := by
  obtain ⟨region, sealed⟩ := sealed_of_returns distinct returns .finish
  suffices within : ∃ start ∈ region, point = .before start by
    obtain ⟨start, _, rfl⟩ := within
    exact Point.noConfusion
  induction flows with
  | refl => exact sealed.entered
  | tail _ step induction =>
      obtain ⟨stmt, next, placed, falls, same, way⟩ := step
      obtain ⟨start, member, equal⟩ := induction
      have here : stmt.start ∈ region := by
        rw [same] at equal
        exact Point.before.inj equal ▸ member
      exact sealed.kept stmt next placed here falls _ way

theorem reaches_cases {past : Bool} {body : List Stmt} {point : Point} :
    Reaches past body point ↔
      Relation.ReflTransGen (Flows past body) (entry .finish body) point ∨
        ∃ jump ∈ listStatements body, ∃ label, jump.target? = some label ∧
          Reaches past body (.before jump.start) ∧
          Relation.ReflTransGen (Flows past body) (.before label.label) point := by
  constructor
  · intro reached
    induction reached with
    | refl => exact .inl .refl
    | @tail middle point before step induction =>
        rcases steps_cases step with flows | ⟨jump, inside, label, goes, rfl, rfl⟩
        · rcases induction with straight | ⟨jump, inside, label, goes, reached, onward⟩
          · exact .inl (straight.tail flows)
          · exact .inr ⟨jump, inside, label, goes, reached, onward.tail flows⟩
        · exact .inr ⟨jump, inside, label, goes, before, .refl⟩
  · rintro (straight | ⟨jump, inside, label, goes, reached, onward⟩)
    · exact Relation.ReflTransGen.mono (fun _ _ => Flows.steps) _ _ straight
    · have jumped := reached.tail (steps_of_jump inside goes)
      exact jumped.trans (Relation.ReflTransGen.mono (fun _ _ => Flows.steps) _ _ onward)

end Stmt

/-- The end of a function that has to return a value is out of reach exactly if no jump that can be
reached goes to a label from which control comes to the end without another jump. -/
theorem end_unreachable_iff {library : Library} {source : String}
    (accepted : Accepted library source) {decl : FunctionDecl}
    (member : decl ∈ (checkSource library source).value.functions)
    (valued : decl.returns ≠ .void) :
    ¬ Stmt.Reaches false decl.body .finish ↔
      ∀ jump ∈ Stmt.listStatements decl.body, ∀ label, jump.target? = some label →
        Stmt.Reaches false decl.body (.before jump.start) →
          ¬ Relation.ReflTransGen (Stmt.Flows false decl.body) (.before label.label) .finish := by
  have returns := accepted.returns member valued
  have own : decl.ownScope ∈ (checkSource library source).value.bodies :=
    List.mem_append_left _ (List.mem_map_of_mem member)
  have distinct : Stmt.Distinct decl.body := (accepted.resolved own).distinct
  constructor
  · intro never jump inside label goes reached onward
    exact never (Stmt.reaches_cases.mpr (.inr ⟨jump, inside, label, goes, reached, onward⟩))
  · intro none reached
    rcases Stmt.reaches_cases.mp reached with straight | ⟨jump, inside, label, goes, before, onward⟩
    · exact Stmt.flow_ne_finish distinct returns straight rfl
    · exact none jump inside label goes before onward

/-- A function without jumps whose branches both return never comes to its end. -/
theorem branches_return :
    let source := "integer f(integer x) \x7b if (x) return 1; else return 2; \x7d " ++
      "default \x7b state_entry() \x7b f(1); \x7d \x7d"
    Accepted .minimal source ∧
      ∃ decl ∈ (checkSource .minimal source).value.functions, decl.returns ≠ .void ∧
        ¬ Stmt.Reaches false decl.body .finish := by
  intro source
  have spelled : source = String.ofList _ := String.ofList_append.symm
  have accepted : Accepted .minimal source := by
    simp only [Accepted, check_source_spelled spelled]
    decide +kernel
  have plain : ∃ decl ∈ (checkSource .minimal source).value.functions, decl.returns ≠ .void ∧
      ∀ jump ∈ Stmt.listStatements decl.body, jump.target? = none := by
    simp only [check_source_spelled spelled]
    decide +kernel
  obtain ⟨decl, member, valued, jumps⟩ := plain
  refine ⟨accepted, decl, member, valued, (end_unreachable_iff accepted member valued).mpr ?_⟩
  intro jump inside label goes
  simp [jumps jump inside] at goes

/-- A function that is accepted although control can come to its end: the jump out of the branch
passes the return. -/
theorem jump_passes_return :
    let source := "integer f(integer x) \x7b if (x) \x7b jump end; \x7d return 1; @end; \x7d " ++
      "default \x7b state_entry() \x7b f(1); \x7d \x7d"
    Accepted .minimal source ∧
      ∃ decl ∈ (checkSource .minimal source).value.functions, decl.returns ≠ .void ∧
        Stmt.Reaches false decl.body .finish := by
  intro source
  have spelled : source = String.ofList _ := String.ofList_append.symm
  have accepted : Accepted .minimal source := by
    simp only [Accepted, check_source_spelled spelled]
    decide +kernel
  have path : ∃ decl ∈ (checkSource .minimal source).value.functions, decl.returns ≠ .void ∧
      Stmt.entry .finish decl.body = .before 23 ∧
      Stmt.Steps false decl.body (.before 23) (.before 32) ∧
      Stmt.Steps false decl.body (.before 32) (.before 54) ∧
      Stmt.Steps false decl.body (.before 54) .finish := by
    simp only [check_source_spelled spelled]
    decide +kernel
  obtain ⟨decl, member, valued, entry, first, second, third⟩ := path
  refine ⟨accepted, decl, member, valued, ?_⟩
  rw [Stmt.Reaches, entry]
  exact .tail (.tail (.tail .refl first) second) third

end Lsl
