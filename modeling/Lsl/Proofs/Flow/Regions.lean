import Lsl.Proofs.Checking.Placing
import Lsl.Proofs.Flow.Liveness

/-!
The regions of dead code. Settling a body gives, in some order, the spans of the runs of dead
statements in its live scopes: a run is as long as it can be, and its span is the smallest over the
statements of the run. In a live scope a run stands right behind a statement that leaves the scope.
-/

set_option autoImplicit false

namespace Lsl

namespace Span

/-- The other span lies inside of the first. -/
def Covers (outer inner : Span) : Prop :=
  outer.start.offset ≤ inner.start.offset ∧ inner.stop.offset ≤ outer.stop.offset

instance (outer inner : Span) : Decidable (outer.Covers inner) :=
  inferInstanceAs (Decidable (_ ∧ _))

theorem Covers.refl (span : Span) : span.Covers span := ⟨Nat.le_refl _, Nat.le_refl _⟩

theorem covers_merge {outer first second : Span} :
    outer.Covers (first.merge second) ↔ outer.Covers first ∧ outer.Covers second := by
  unfold Covers merge
  dsimp only
  split <;> split <;> omega

end Span

/-- The smallest span over those of statements. -/
structure Span.IsHull (span : Span) (run : List Stmt) : Prop where
  covers : ∀ stmt ∈ run, span.Covers stmt.span
  least : ∀ other : Span, (∀ stmt ∈ run, other.Covers stmt.span) → other.Covers span

/-- Dead statements in a row, with no other dead one next to them. -/
structure DeadRun (body front run back : List Stmt) : Prop where
  parts : body = front ++ run ++ back
  filled : run ≠ []
  dead : ∀ stmt ∈ run, stmt.reach ≠ .live
  before : ∀ stmt ∈ front.getLast?, stmt.reach = .live
  behind : ∀ stmt ∈ back.head?, stmt.reach = .live

namespace Stmt

/-- The smallest span over a span and those of statements behind it. -/
def covering (span : Span) (run : List Stmt) : Span :=
  run.foldl (fun span stmt => span.merge stmt.span) span

theorem covers_covering {outer span : Span} {run : List Stmt} :
    outer.Covers (covering span run) ↔
      outer.Covers span ∧ ∀ stmt ∈ run, outer.Covers stmt.span := by
  induction run generalizing span with
  | nil => simp [covering]
  | cons stmt run induction =>
      have next : covering span (stmt :: run) = covering (span.merge stmt.span) run := rfl
      rw [next, induction, Span.covers_merge, List.forall_mem_cons, and_assoc]

theorem covering_hull (first : Stmt) (run : List Stmt) :
    (covering first.span run).IsHull (first :: run) where
  covers := List.forall_mem_cons.mpr (covers_covering.mp (.refl _))
  least _ around := covers_covering.mpr (List.forall_mem_cons.mp around)

def extended (region : Option Span) (stmt : Stmt) : Span :=
  match region with
  | some region => region.merge stmt.span
  | none => stmt.span

/-- The spans of the runs of dead statements, where a run may go on from what stands in front. -/
def deadSpans (region : Option Span) : List Stmt → List Span
  | [] => region.toList
  | stmt :: rest =>
    if stmt.reach = .live then region.toList ++ deadSpans none rest
    else deadSpans (some (extended region stmt)) rest

theorem dead_spans_live {region : Option Span} {stmt : Stmt} {rest : List Stmt}
    (live : stmt.reach = .live) :
    deadSpans region (stmt :: rest) = region.toList ++ deadSpans none rest := if_pos live

theorem dead_spans_dead {region : Option Span} {stmt : Stmt} {rest : List Stmt}
    (dead : stmt.reach ≠ .live) :
    deadSpans region (stmt :: rest) = deadSpans (some (extended region stmt)) rest := if_neg dead

theorem region_covered (region : Span) (body : List Stmt) :
    ∃ span ∈ deadSpans (some region) body, span.Covers region := by
  induction body generalizing region with
  | nil => exact ⟨region, List.mem_cons_self, .refl region⟩
  | cons stmt rest induction =>
      by_cases live : stmt.reach = .live
      · rw [dead_spans_live live]
        exact ⟨region, List.mem_cons_self, .refl region⟩
      · rw [dead_spans_dead live]
        obtain ⟨span, member, covers⟩ := induction (region.merge stmt.span)
        exact ⟨span, member, (Span.covers_merge.mp covers).1⟩

theorem dead_covered {region : Option Span} {body : List Stmt} {stmt : Stmt} (member : stmt ∈ body)
    (dead : stmt.reach ≠ .live) : ∃ span ∈ deadSpans region body, span.Covers stmt.span := by
  induction body generalizing region with
  | nil => cases member
  | cons first rest induction =>
      by_cases live : first.reach = .live
      · rw [dead_spans_live live]
        rcases List.mem_cons.mp member with rfl | member
        · exact absurd live dead
        · obtain ⟨span, known, covers⟩ := @induction none member
          exact ⟨span, List.mem_append_right _ known, covers⟩
      · rw [dead_spans_dead live]
        rcases List.mem_cons.mp member with rfl | member
        · obtain ⟨span, known, covers⟩ := region_covered (extended region stmt) rest
          cases region with
          | none => exact ⟨span, known, covers⟩
          | some region => exact ⟨span, known, (Span.covers_merge.mp covers).2⟩
        · exact induction member

theorem run_of_mem {region : Option Span} {body : List Stmt} {span : Span}
    (member : span ∈ deadSpans region body) :
    (∃ start run back, region = some start ∧ body = run ++ back ∧
      (∀ stmt ∈ run, stmt.reach ≠ .live) ∧ (∀ stmt ∈ back.head?, stmt.reach = .live) ∧
      span = covering start run) ∨
    ∃ front first run back, DeadRun body front (first :: run) back ∧
      (region.isSome = true → front ≠ []) ∧ span = covering first.span run := by
  induction body generalizing region with
  | nil =>
      have same : region = some span := by simpa [deadSpans] using member
      exact .inl ⟨span, [], [], same, rfl, by simp, by simp, rfl⟩
  | cons stmt rest induction =>
      by_cases live : stmt.reach = .live
      · rw [dead_spans_live live, List.mem_append, Option.mem_toList] at member
        rcases member with known | later
        · exact .inl ⟨span, [], stmt :: rest, known, rfl, by simp, by simpa using live, rfl⟩
        · rcases induction later with ⟨_, _, _, none, _⟩ | ⟨front, first, run, back, whole, _, same⟩
          · cases none
          · refine .inr ⟨stmt :: front, first, run, back, ⟨?_, whole.filled, whole.dead, ?_,
              whole.behind⟩, by simp, same⟩
            · rw [whole.parts, List.cons_append, List.cons_append]
            · intro found last
              cases shown : front.getLast? with
              | none =>
                  obtain rfl : stmt = found := by simpa [List.getLast?_cons, shown] using last
                  exact live
              | some other =>
                  obtain rfl : other = found := by simpa [List.getLast?_cons, shown] using last
                  exact whole.before other shown
      · rw [dead_spans_dead live] at member
        rcases induction member with ⟨start, run, back, begun, parts, dead, behind, same⟩ |
          ⟨front, first, run, back, whole, behind, same⟩
        · have dead : ∀ found ∈ stmt :: run, found.reach ≠ .live :=
            List.forall_mem_cons.mpr ⟨live, dead⟩
          cases region with
          | none =>
              obtain rfl := Option.some.inj begun
              exact .inr ⟨[], stmt, run, back, ⟨by rw [parts]; rfl, List.cons_ne_nil _ _, dead,
                by simp, behind⟩, by simp, same⟩
          | some region =>
              obtain rfl := Option.some.inj begun
              exact .inl ⟨region, stmt :: run, back, rfl, by rw [parts]; rfl, dead, behind, same⟩
        · have filled := behind rfl
          refine .inr ⟨stmt :: front, first, run, back, ⟨?_, whole.filled, whole.dead, ?_,
            whole.behind⟩, by simp, same⟩
          · rw [whole.parts, List.cons_append, List.cons_append]
          · intro found last
            refine whole.before found ?_
            rw [List.getLast?_cons_of_ne_nil filled] at last
            exact last

theorem mem_dead_spans {body : List Stmt} {span : Span} (member : span ∈ deadSpans none body) :
    ∃ front first run back, DeadRun body front (first :: run) back ∧
      span = covering first.span run := by
  rcases run_of_mem member with ⟨_, _, _, none, _⟩ | ⟨front, first, run, back, whole, _, same⟩
  · cases none
  · exact ⟨front, first, run, back, whole, same⟩

end Stmt

def CodeScope.deadSpans (scope : CodeScope) : List Span :=
  if scope.info.reach = .live then Stmt.deadSpans none scope.body else []

namespace Stmt

variable (targets : List Nat)

theorem list_regions_cons (flow : Flow) (stmt : Stmt) (rest : List Stmt) :
    (listSettle targets flow (stmt :: rest)).2 =
      if flow.dead then
        if stmt.isTarget targets then
          flow.region.toList ++
            (listSettle targets { pending := (flow.meet stmt.start).pending } rest).2
        else (listSettle targets ((flow.meet stmt.start).extend stmt.span) rest).2
      else
        (stmt.parts.flatMap fun part => (listSettle targets {} part.body).2) ++
          (listSettle targets ((flow.meet stmt.start).leave stmt) rest).2 := by
  rw [← regions_settle]
  by_cases dead : flow.dead = true
  · by_cases target : stmt.isTarget targets = true
    · simp [listSettle, Flow.meet, dead, target]
    · simp [listSettle, Flow.meet, dead, target]
  · simp [listSettle, Flow.meet, dead]

theorem region_extend (flow : Flow) (stmt : Stmt) :
    (flow.extend stmt.span).region = some (extended flow.region stmt) ∧
      (flow.extend stmt.span).dead = flow.dead := by
  unfold Flow.extend extended
  split <;> simp_all

theorem region_leave (flow : Flow) (stmt : Stmt) : (flow.leave stmt).region = flow.region := by
  unfold Flow.leave
  split
  · rfl
  · rfl
  · split <;> rfl
  · rfl
  · rfl

theorem dead_spans_marked {reach : Reachability} (dead : reach ≠ .live) (stmt : Stmt) :
    (stmt.marked reach).scopes.flatMap CodeScope.deadSpans = [] := by
  have list := list_scopes_marked reach [stmt]
  simp only [listMarked, listScopes, List.append_nil] at list
  rw [list, List.flatMap_map, List.flatMap_eq_nil_iff]
  exact fun scope _ => if_neg dead

/-- The regions that settling gives are the spans of the runs in the settled statements and in the
live scopes inside of them. While nothing is dead no region is open. -/
theorem list_settle_regions {flow : Flow} {body : List Stmt}
    (shut : flow.dead = false → flow.region = none) (fresh : Fresh body) :
    (listSettle targets flow body).2.Perm
      (deadSpans flow.region (listSettle targets flow body).1 ++
        (listScopes (listSettle targets flow body).1).flatMap CodeScope.deadSpans) := by
  induction body using Stmt.list_induction generalizing flow with
  | nil => simp [listSettle, deadSpans, listScopes]
  | cons stmt rest inner outer =>
      obtain ⟨⟨whole, unmarked⟩, parts, others⟩ := fresh_cons.mp fresh
      have live : stmt.reach = .live := unmarked _ stmt.reach_mem_marks
      rw [list_regions_cons, list_settle_cons]
      split_ifs with dead target
      · have none : stmt.scopes = [] := by rw [scopes_eq, parts_of_target target, List.flatMap_nil]
        rw [dead_spans_live live, listScopes, none, List.nil_append, List.append_assoc]
        exact (outer (by simp) others).append_left _
      · have mark := (flow.meet stmt.start).reach_not_live
        have mark' : (stmt.marked (flow.meet stmt.start).reach).reach ≠ .live := by
          rw [marks_marked _ stmt whole _ (reach_mem_marks _)]
          exact mark
        obtain ⟨region, still⟩ := region_extend (flow.meet stmt.start) stmt
        have same : extended flow.region (stmt.marked (flow.meet stmt.start).reach) =
            extended (flow.meet stmt.start).region stmt := by
          simp [extended, Flow.meet]
        rw [dead_spans_dead mark', same, ← region, listScopes, List.flatMap_append,
          dead_spans_marked mark, List.nil_append]
        refine outer (fun alive => ?_) others
        exact absurd (still.symm.trans alive) (by simp [Flow.meet, dead])
      · have inside : (stmt.parts.flatMap fun part => (listSettle targets {} part.body).2).Perm
            ((stmt.settle targets).1.scopes.flatMap CodeScope.deadSpans) := by
          rw [scopes_eq, parts_settle, List.flatMap_map, List.flatMap_assoc]
          refine .flatMap_left _ fun part member => ?_
          have entered : part.info.reach = .live :=
            unmarked _ (List.mem_cons_of_mem _ (List.mem_map_of_mem member))
          rw [CodeScope.scopes, List.flatMap_cons, CodeScope.deadSpans, CodeScope.settled,
            if_pos entered]
          exact inner part member (by simp) (parts part member)
        have region : ((flow.meet stmt.start).leave stmt).region = none := by
          rw [region_leave]
          exact shut (by simpa using dead)
        have behind := @outer ((flow.meet stmt.start).leave stmt) (fun _ => region) others
        rw [region] at behind
        rw [dead_spans_live (by rwa [reach_settle]), shut (by simpa using dead), listScopes,
          List.flatMap_append]
        exact (inside.append behind).trans (List.perm_append_comm_assoc _ _ _)

theorem settle_regions (info : ScopeInfo) {body : List Stmt} (fresh : Fresh body)
    (live : info.reach = .live) :
    (settleBody body).2.Perm
      ((CodeScope.scopes ⟨info, (settleBody body).1⟩).flatMap CodeScope.deadSpans) := by
  rw [CodeScope.scopes, List.flatMap_cons, CodeScope.deadSpans, if_pos live]
  exact list_settle_regions _ (by simp) fresh

end Stmt

namespace Settled

variable {targets : List Nat} {flow : Flow} {body : List Stmt}

theorem uniform (settled : Settled targets flow body) {stmt : Stmt} (member : stmt ∈ body)
    (dead : stmt.reach ≠ .live) :
    ∀ found ∈ stmt.statements, ∀ mark ∈ found.marks, mark = stmt.reach := by
  induction settled with
  | nil => cases member
  | dead _ _ marks _ outer =>
      rcases List.mem_cons.mp member with rfl | member
      · intro found inside mark own
        rw [marks found inside mark own, marks stmt stmt.mem_statements_self _ stmt.reach_mem_marks]
      · exact outer member
  | revived _ _ marks _ outer =>
      rcases List.mem_cons.mp member with rfl | member
      · exact absurd (marks _ stmt.reach_mem_marks) dead
      · exact outer member
  | live _ marks _ _ _ outer =>
      rcases List.mem_cons.mp member with rfl | member
      · exact absurd (marks _ stmt.reach_mem_marks) dead
      · exact outer member

/-- The first statement of a run stands behind one that leaves the scope, unless control came in
dead. -/
theorem led {front back : List Stmt} {stmt : Stmt}
    (settled : Settled targets flow (front ++ stmt :: back)) (dead : stmt.reach ≠ .live)
    (before : ∀ last ∈ front.getLast?, last.reach = .live) :
    (front = [] ∧ flow.dead = true) ∨
      ∃ others exit, front = others ++ [exit] ∧ exit.isExit = true := by
  induction front generalizing flow with
  | nil =>
      cases settled with
      | dead entered => exact .inl ⟨rfl, entered⟩
      | revived _ _ marks => exact absurd (marks _ stmt.reach_mem_marks) dead
      | live _ marks => exact absurd (marks _ stmt.reach_mem_marks) dead
  | cons first front induction =>
      refine .inr ?_
      -- Where the front goes on the statement is led to from there.
      have onward {flow : Flow} (settled : Settled targets flow (front ++ stmt :: back))
          (alone : front = [] → flow.dead = true → first.isExit = true) :
          ∃ others exit, first :: front = others ++ [exit] ∧ exit.isExit = true := by
        have last : ∀ last ∈ front.getLast?, last.reach = .live := fun last member =>
          before last (by rw [List.getLast?_cons, Option.mem_def.mp member]; rfl)
        rcases induction settled last with ⟨none, entered⟩ | ⟨others, exit, rfl, leaves⟩
        · exact ⟨[], first, by rw [none]; rfl, alone none entered⟩
        · exact ⟨first :: others, exit, rfl, leaves⟩
      cases settled with
      | dead entered _ marks others =>
          refine onward others fun none _ => ?_
          have live := before first (by rw [none]; rfl)
          exact absurd live (reach_of_dead marks (.inl rfl))
      | revived _ _ _ others => exact onward others fun _ entered => by cases entered
      | live alive _ _ others =>
          refine onward others fun _ entered => ?_
          by_contra stays
          rw [Flow.leave_of_not_exit _ (by simpa using stays)] at entered
          exact absurd (alive.symm.trans entered) (by decide)

end Settled

end Lsl
