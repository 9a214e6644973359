import Lsl.Proofs.Flow.Regions
import Lsl.Proofs.Parsing.Enclosing
import Lsl.Proofs.Syntax.Plain
import Lsl.Proofs.Syntax.Scopes

/-!
Dead code does not overlap. Where nodes that stand next to each other do not, the spans of dead code
below a node do not even touch, and nothing live starts inside of one of them: in a scope the dead
code stands right behind a statement that leaves the scope, and that statement has nothing in it.
-/

set_option autoImplicit false

namespace Lsl

def Node.Bears (holds : Reachability → Prop) (node : Node) : Prop :=
  ∀ mark ∈ node.reach?, holds mark

section Marks

variable {holds : Reachability → Prop}

theorem Node.bears_some {node : Node} {mark : Reachability} (own : node.reach? = some mark)
    (given : holds mark) : node.Bears holds := by
  intro found member
  rw [own] at member
  exact Option.some.inj member ▸ given

theorem scope_throughout_marks {info : ScopeInfo} {body : List Stmt} (own : holds info.reach)
    (inside : ∀ stmt ∈ body, stmt.node.Throughout (Node.Bears holds)) :
    (Node.scope info body).Throughout (Node.Bears holds) :=
  .intro (Node.bears_some rfl own) (List.forall_mem_map.mpr inside)

theorem Expr.throughout_marks (expr : Expr) : (Node.expr expr).Throughout (Node.Bears holds) :=
  expr.throughout (fun _ => nofun) fun _ _ => nofun

theorem ExprList.throughout_marks (role : ListRole) (list : ExprList) :
    (Node.exprList role list).Throughout (Node.Bears holds) :=
  list.throughout (fun _ => nofun) (fun _ _ => nofun) role

theorem Alternatives.throughout_marks (rest : Alternatives)
    (parts : ∀ part ∈ rest.parts, holds part.info.reach ∧
      ∀ stmt ∈ part.body, stmt.node.Throughout (Node.Bears holds)) :
    ∀ branch ∈ rest.branches, branch.Throughout (Node.Bears holds) := by
  match rest with
  | .done => simp [branches]
  | .elseIf span condition scope body rest =>
      obtain ⟨⟨own, inside⟩, others⟩ := List.forall_mem_cons.mp parts
      refine List.forall_mem_cons.mpr ⟨.intro (Node.bears_some rfl own) ?_,
        rest.throughout_marks others⟩
      simp [Node.children, condition.throughout_marks, scope_throughout_marks own inside]
  | .otherwise span scope body =>
      obtain ⟨⟨own, inside⟩, _⟩ := List.forall_mem_cons.mp parts
      refine List.forall_mem_singleton.mpr (.intro (Node.bears_some rfl own) ?_)
      simp [Node.children, scope_throughout_marks own inside]

theorem Stmt.node_throughout_marks (stmt : Stmt) (own : holds stmt.reach)
    (parts : ∀ part ∈ stmt.parts, holds part.info.reach ∧
      ∀ stmt ∈ part.body, stmt.node.Throughout (Node.Bears holds)) :
    stmt.node.Throughout (Node.Bears holds) := by
  cases stmt with
  | block info body => exact scope_throughout_marks own (parts _ (List.mem_singleton_self _)).2
  | broken span => exact .intro nofun (List.forall_mem_nil _)
  | branch info first condition scope body rest =>
      obtain ⟨⟨entered, inside⟩, others⟩ := List.forall_mem_cons.mp parts
      refine .intro (Node.bears_some rfl own) (List.forall_mem_cons.mpr
        ⟨.intro (Node.bears_some rfl entered) ?_, rest.throughout_marks others⟩)
      simp [Node.children, condition.throughout_marks, scope_throughout_marks entered inside]
  | whileLoop info condition scope body | doLoop info scope body condition
  | forLoop info init condition afterthought scope body =>
      obtain ⟨entered, inside⟩ := parts _ (List.mem_singleton_self _)
      refine .intro (Node.bears_some rfl own) ?_
      simp [node, Node.children, children, Expr.throughout_marks, ExprList.throughout_marks,
        scope_throughout_marks entered inside, or_imp, forall_and]
  | _ =>
      refine .intro (Node.bears_some rfl own) ?_
      simp [node, Node.children, children, Expr.throughout_marks]

/-- All marks below a statement are those of its statements and their scopes. -/
theorem Stmt.throughout_marks {body : List Stmt}
    (marks : ∀ found ∈ listStatements body, ∀ mark ∈ found.marks, holds mark) :
    ∀ stmt ∈ body, stmt.node.Throughout (Node.Bears holds) := by
  induction body using Stmt.list_induction with
  | nil => nofun
  | cons stmt rest inner outer =>
      refine List.forall_mem_cons.mpr
        ⟨?_, outer fun found inside => marks found (mem_of_rest inside)⟩
      obtain ⟨own, scopes⟩ := List.forall_mem_cons.mp
        (marks stmt (mem_list_statements_cons.mpr (.inl rfl)))
      exact stmt.node_throughout_marks own fun part member =>
        ⟨scopes _ (List.mem_map_of_mem member),
          inner part member fun found inside => marks found (mem_of_part member inside)⟩

end Marks

namespace Span

/-- The offset is one that the span is over. -/
def Holds (span : Span) (offset : Nat) : Prop :=
  span.start.offset ≤ offset ∧ offset < span.stop.offset

/-- One of the spans ends in front of the other, with something between them. -/
def Clear (first second : Span) : Prop :=
  first.stop.offset < second.start.offset ∨ second.stop.offset < first.start.offset

theorem Clear.symm {first second : Span} (clear : first.Clear second) : second.Clear first :=
  Or.symm clear

theorem Clear.not_covers {first second inner : Span} (clear : first.Clear second)
    (forward : inner.start.offset ≤ inner.stop.offset) (covers : first.Covers inner) :
    ¬ second.Covers inner := by
  unfold Covers Clear at *
  omega

theorem Clear.ne {first second : Span} (clear : first.Clear second)
    (forward : first.start.offset ≤ first.stop.offset) : first ≠ second :=
  fun same => clear.not_covers forward (.refl first) (same ▸ .refl first)

end Span

theorem Span.merge_stop_le {first second : Span} {high : Nat} :
    (first.merge second).stop.offset ≤ high ↔
      first.stop.offset ≤ high ∧ second.stop.offset ≤ high := by
  unfold merge
  dsimp only
  split <;> omega

theorem DeadRun.subset {body front run back : List Stmt} (whole : DeadRun body front run back) :
    run ⊆ body := by
  intro stmt member
  rw [whole.parts]
  exact List.mem_append_left _ (List.mem_append_right _ member)

namespace Span.IsHull

variable {span : Span} {run : List Stmt} (hull : span.IsHull run)

include hull

theorem le_start {low : Nat} (above : ∀ stmt ∈ run, low ≤ stmt.start) :
    low ≤ span.start.offset :=
  (hull.least { span with start := { span.start with offset := low } } fun stmt member =>
    ⟨above stmt member, (hull.covers stmt member).2⟩).1

theorem stop_le {high : Nat} (below : ∀ stmt ∈ run, stmt.span.stop.offset ≤ high) :
    span.stop.offset ≤ high :=
  (hull.least { span with stop := { span.stop with offset := high } } fun stmt member =>
    ⟨(hull.covers stmt member).1, below stmt member⟩).2

end Span.IsHull

namespace Stmt

/-- The first statement ends in front of the second, and starts in front of it. -/
def Leads (first second : Stmt) : Prop :=
  first.span.stop.offset ≤ second.start ∧ first.start < second.start

/-- Statements in a row are behind each other. -/
structure InRow (body : List Stmt) : Prop where
  forward : ∀ stmt ∈ body, stmt.start ≤ stmt.span.stop.offset
  leads : body.Pairwise Leads

theorem InRow.rest {stmt : Stmt} {rest : List Stmt} (row : InRow (stmt :: rest)) : InRow rest :=
  ⟨fun found member => row.forward found (List.mem_cons_of_mem _ member), row.leads.of_cons⟩

theorem dead_spans_all_live {body : List Stmt} (live : ∀ stmt ∈ body, stmt.reach = .live) :
    deadSpans none body = [] := by
  induction body with
  | nil => rfl
  | cons stmt rest induction =>
      obtain ⟨head, others⟩ := List.forall_mem_cons.mp live
      rw [dead_spans_live head, induction others]
      rfl

/-- The spans of two runs do not touch: the live statement between them starts in front of the
second run. -/
theorem dead_spans_rising {region : Option Span} {body : List Stmt} (row : InRow body)
    (before : ∀ span ∈ region, ∀ stmt ∈ body, span.stop.offset ≤ stmt.start) :
    (deadSpans region body).Pairwise fun first second =>
      first.stop.offset < second.start.offset := by
  induction body generalizing region with
  | nil => cases region <;> simp [deadSpans]
  | cons stmt rest induction =>
      obtain ⟨leads, _⟩ := List.pairwise_cons.mp row.leads
      by_cases live : stmt.reach = .live
      · rw [dead_spans_live live]
        refine List.pairwise_append.mpr ⟨?_, @induction none row.rest (by simp), ?_⟩
        · cases region <;> simp
        · intro span known later member
          obtain ⟨front, first, run, back, whole, rfl⟩ := mem_dead_spans member
          have near := before span (by simpa using known) stmt List.mem_cons_self
          have starts : stmt.start + 1 ≤ (covering first.span run).start.offset :=
            (covering_hull first run).le_start fun found inside =>
              (leads found (whole.subset inside)).2
          omega
      · rw [dead_spans_dead live]
        refine induction row.rest ?_
        intro span same found member
        obtain rfl := Option.some.inj same
        have behind := (leads found member).1
        cases region with
        | none => exact behind
        | some region =>
            exact Span.merge_stop_le.mpr
              ⟨before region rfl found (List.mem_cons_of_mem _ member), behind⟩

end Stmt

namespace Settled

variable {targets : List Nat} {body : List Stmt} {span : Span}

/-- In front of dead code stands a statement that leaves the scope. What is in front of that one
ends in front of the dead code, and what is behind the dead code starts behind it. -/
theorem fenced (settled : Settled targets {} body) (row : Stmt.InRow body)
    (member : span ∈ Stmt.deadSpans none body) :
    ∃ others exit run back, body = others ++ exit :: (run ++ back) ∧ exit.isExit = true ∧
      exit.start < span.start.offset ∧ (∀ stmt ∈ run, stmt.reach ≠ .live) ∧
      (∀ stmt ∈ others, stmt.span.stop.offset < span.start.offset) ∧
      ∀ stmt ∈ back, span.stop.offset ≤ stmt.start := by
  obtain ⟨front, first, run, back, whole, rfl⟩ := Stmt.mem_dead_spans member
  have hull := Stmt.covering_hull first run
  have parts : body = front ++ first :: (run ++ back) := by
    rw [whole.parts, List.append_assoc, List.cons_append]
  rcases (parts ▸ settled).led (whole.dead first List.mem_cons_self) whole.before with
    ⟨_, entered⟩ | ⟨others, exit, rfl, leaves⟩
  · cases entered
  have parts : body = others ++ exit :: (first :: run ++ back) := by simpa using parts
  have leads := parts ▸ row.leads
  obtain ⟨_, onward, front⟩ := List.pairwise_append.mp leads
  obtain ⟨exits, after⟩ := List.pairwise_cons.mp onward
  obtain ⟨_, _, runs⟩ := List.pairwise_append.mp after
  have starts : exit.start + 1 ≤ (Stmt.covering first.span run).start.offset :=
    hull.le_start fun found inside => (exits found (List.mem_append_left _ inside)).2
  refine ⟨others, exit, first :: run, back, parts, leaves, starts, whole.dead, ?_, ?_⟩
  · intro stmt inside
    have ahead := (front stmt inside exit List.mem_cons_self).1
    omega
  · exact fun stmt behind => hull.stop_le fun found inside => (runs found inside stmt behind).1

theorem entered (settled : Settled targets {} body) (row : Stmt.InRow body)
    (member : span ∈ Stmt.deadSpans none body) : ∃ stmt ∈ body, stmt.start < span.start.offset := by
  obtain ⟨others, exit, run, back, parts, _, starts, _⟩ := settled.fenced row member
  exact ⟨exit, by rw [parts]; exact List.mem_append_right _ List.mem_cons_self, starts⟩

theorem beside (settled : Settled targets {} body) (row : Stmt.InRow body)
    (member : span ∈ Stmt.deadSpans none body) {stmt : Stmt} (inside : stmt ∈ body) :
    stmt.reach ≠ .live ∨ (stmt.isExit = true ∧ stmt.start < span.start.offset) ∨
      stmt.span.stop.offset < span.start.offset ∨ span.stop.offset ≤ stmt.start := by
  obtain ⟨others, exit, run, back, parts, leaves, starts, dead, ahead, behind⟩ :=
    settled.fenced row member
  rw [parts] at inside
  rcases List.mem_append.mp inside with before | later
  · exact .inr (.inr (.inl (ahead stmt before)))
  rcases List.mem_cons.mp later with rfl | later
  · exact .inr (.inl ⟨leaves, starts⟩)
  rcases List.mem_append.mp later with within | after
  · exact .inl (dead stmt within)
  · exact .inr (.inr (.inr (behind stmt after)))

end Settled

def deadIn (outline : List Occurrence) : List Span :=
  (outlineScopes outline).flatMap CodeScope.deadSpans

section

variable {around : List Node}

theorem dead_in_flat_map (nodes : List Node) :
    deadIn (nodes.flatMap (Node.outline around)) =
      nodes.flatMap fun node => deadIn (node.outline around) := by
  rw [deadIn, outline_scopes_flat_map (fun _ => rfl), List.flatMap_assoc]
  rfl

theorem mem_dead_in {outline : List Occurrence} {span : Span} :
    span ∈ deadIn outline ↔ ∃ found ∈ outline, ∃ scope, found.node.scope? = some scope ∧
      span ∈ scope.deadSpans := by
  simp only [deadIn, outlineScopes, List.mem_flatMap, List.mem_filterMap]
  constructor
  · rintro ⟨scope, ⟨found, inside, same⟩, member⟩
    exact ⟨found, inside, scope, same, member⟩
  · rintro ⟨found, inside, scope, same, member⟩
    exact ⟨scope, ⟨found, inside, same⟩, member⟩

end

theorem Node.reach_of_scope {node : Node} {scope : CodeScope} (own : node.scope? = some scope) :
    node.reach? = some scope.info.reach := by
  cases node with
  | scope info body => cases own; rfl
  | _ => cases own

/-- Where nothing is marked as live there is no dead code to speak of. -/
theorem dead_in_nil {outline : List Occurrence}
    (dead : ∀ found ∈ outline, found.node.Bears (· ≠ .live)) : deadIn outline = [] := by
  refine List.eq_nil_iff_forall_not_mem.mpr fun span member => ?_
  obtain ⟨found, inside, scope, own, member⟩ := mem_dead_in.mp member
  rw [CodeScope.deadSpans, if_neg (dead found inside _ (Node.reach_of_scope own))] at member
  cases member

/-- A node is around its children. These do not overlap, and in a scope each of them leads to those
behind it. -/
structure Node.Orderly (node : Node) : Prop where
  forward : node.span.start.offset ≤ node.span.stop.offset
  within : ∀ child ∈ node.children, node.span.Covers child.span
  apart : node.children.Pairwise Node.Apart
  leads : node.scope?.isSome = true → node.children.Pairwise fun first second =>
    first.span.stop.offset ≤ second.span.start.offset ∧
      first.span.start.offset < second.span.start.offset

theorem Node.scope_plain (node : Node) : node.plain.scope?.isSome = node.scope?.isSome := by
  cases node <;> rfl

theorem Node.orderly_plain (node : Node) : node.plain.Orderly ↔ node.Orderly := by
  constructor
  · rintro ⟨forward, within, apart, leads⟩
    simp only [span_plain, children_plain, List.forall_mem_map, List.pairwise_map, scope_plain,
      Apart] at forward within apart leads
    exact ⟨forward, within, apart, leads⟩
  · rintro ⟨forward, within, apart, leads⟩
    constructor
    all_goals simpa only [span_plain, children_plain, List.forall_mem_map, List.pairwise_map,
      scope_plain, Apart]

@[simp] theorem Stmt.span_node (stmt : Stmt) : stmt.node.span = stmt.span := by
  cases stmt <;> rfl

theorem Node.Throughout.row {info : ScopeInfo} {body : List Stmt}
    (orderly : (Node.scope info body).Throughout Node.Orderly) : Stmt.InRow body where
  forward stmt member := by
    have forward := (orderly.child (List.mem_map_of_mem member)).self.forward
    rwa [stmt.span_node] at forward
  leads := by
    have leads := orderly.self.leads rfl
    simp only [children, List.pairwise_map, Stmt.span_node] at leads
    exact leads

/-- The dead code below a node lies in the node, behind its start. None of it touches other dead
code, and nothing live starts in it. -/
structure Node.Parted (around : List Node) (node : Node) : Prop where
  starts : ∀ found ∈ node.outline around,
    node.span.start.offset ≤ found.node.span.start.offset ∧
      found.node.span.start.offset ≤ node.span.stop.offset
  inside : ∀ span ∈ deadIn (node.outline around), node.span.start.offset < span.start.offset ∧
    span.start.offset ≤ span.stop.offset ∧ span.stop.offset ≤ node.span.stop.offset
  clear : (deadIn (node.outline around)).Pairwise Span.Clear
  alive : ∀ found ∈ node.outline around, found.node.reach? = some .live →
    ∀ span ∈ deadIn (node.outline around), ¬ span.Holds found.node.span.start.offset

namespace Node.Parted

variable {around : List Node}

section

variable {nodes : List Node} (apart : nodes.Pairwise Node.Apart)
  (parted : ∀ node ∈ nodes, node.Parted around)

include apart parted

theorem clear_below : (deadIn (nodes.flatMap (Node.outline around))).Pairwise Span.Clear := by
  rw [dead_in_flat_map]
  refine List.pairwise_flatMap.mpr ⟨fun node member => (parted node member).clear, ?_⟩
  refine apart.imp_of_mem fun {first second} left right apart span inside other within => ?_
  have here := (parted first left).inside span inside
  have there := (parted second right).inside other within
  unfold Apart at apart
  unfold Span.Clear
  omega

theorem alive_below {found : Occurrence} (member : found ∈ nodes.flatMap (Node.outline around))
    (live : found.node.reach? = some .live) {span : Span}
    (inside : span ∈ deadIn (nodes.flatMap (Node.outline around))) :
    ¬ span.Holds found.node.span.start.offset := by
  rw [dead_in_flat_map] at inside
  obtain ⟨first, left, member⟩ := List.mem_flatMap.mp member
  obtain ⟨second, right, inside⟩ := List.mem_flatMap.mp inside
  by_cases same : first = second
  · subst same
    exact (parted first left).alive found member live span inside
  · have : Std.Symm Node.Apart := ⟨fun _ _ => Node.Apart.symm⟩
    have apart := apart.forall left right same
    have here := (parted first left).starts found member
    have there := (parted second right).inside span inside
    unfold Apart at apart
    unfold Span.Holds
    omega

end

theorem of_children {node : Node} (root : node.isScript = true → around = [])
    (orderly : node.Orderly) (below : ∀ child ∈ node.children, child.Parted (node :: around))
    (inside : ∀ span ∈ node.scope?.toList.flatMap CodeScope.deadSpans,
      node.span.start.offset < span.start.offset ∧ span.start.offset ≤ span.stop.offset ∧
        span.stop.offset ≤ node.span.stop.offset)
    (clear : (node.scope?.toList.flatMap CodeScope.deadSpans).Pairwise Span.Clear)
    (others : ∀ span ∈ node.scope?.toList.flatMap CodeScope.deadSpans,
      ∀ child ∈ node.children,
        (∀ other ∈ deadIn (child.outline (node :: around)), span.Clear other) ∧
        ∀ found ∈ child.outline (node :: around), found.node.reach? = some .live →
          ¬ span.Holds found.node.span.start.offset) :
    node.Parted around := by
  have parts : deadIn (node.outline around) =
      node.scope?.toList.flatMap CodeScope.deadSpans ++
        deadIn (node.children.flatMap (outline (node :: around))) := by
    rw [outline_eq node around root, deadIn, outline_scopes_cons, List.flatMap_append]
    rfl
  have within : ∀ span ∈ deadIn (node.outline around),
      node.span.start.offset < span.start.offset ∧ span.start.offset ≤ span.stop.offset ∧
        span.stop.offset ≤ node.span.stop.offset := by
    intro span member
    rw [parts, dead_in_flat_map] at member
    rcases List.mem_append.mp member with own | member
    · exact inside span own
    · obtain ⟨child, known, member⟩ := List.mem_flatMap.mp member
      have around := orderly.within child known
      have bounds := (below child known).inside span member
      unfold Span.Covers at around
      omega
  constructor
  case inside => exact within
  case starts =>
    rw [outline_eq node around root]
    refine List.forall_mem_cons.mpr ⟨⟨Nat.le_refl _, orderly.forward⟩, fun found member => ?_⟩
    obtain ⟨child, known, member⟩ := List.mem_flatMap.mp member
    have around := orderly.within child known
    have bounds := (below child known).starts found member
    unfold Span.Covers at around
    omega
  case clear =>
    rw [parts]
    refine List.pairwise_append.mpr ⟨clear, clear_below orderly.apart below, ?_⟩
    intro span own other member
    rw [dead_in_flat_map] at member
    obtain ⟨child, known, member⟩ := List.mem_flatMap.mp member
    exact (others span own child known).1 other member
  case alive =>
    intro found member live span dead
    rw [outline_eq node around root] at member
    rcases List.mem_cons.mp member with rfl | member
    · exact fun holds => Nat.not_lt_of_le holds.1 (within span dead).1
    · rw [parts] at dead
      rcases List.mem_append.mp dead with own | dead
      · obtain ⟨child, known, member⟩ := List.mem_flatMap.mp member
        exact (others span own child known).2 found member live
      · exact alive_below orderly.apart below member live dead

end Node.Parted

theorem Stmt.children_of_exit {stmt : Stmt} (leaves : stmt.isExit = true)
    {holds : Reachability → Prop} :
    ∀ child ∈ stmt.node.children, child.Throughout (Node.Bears holds) := by
  cases stmt with
  | giveBack info value => exact List.forall_mem_map.mpr fun found _ => found.throughout_marks
  | jump | changeState => exact List.forall_mem_nil _
  | _ => cases leaves

theorem Stmt.outline_of_exit {stmt : Stmt} (leaves : stmt.isExit = true) (around : List Node) :
    deadIn (stmt.node.outline around) = [] ∧
      ∀ found ∈ stmt.node.outline around, found.node.reach? = some .live →
        found.node.span.start.offset = stmt.start := by
  have root : stmt.node.isScript = true → around = [] := by
    simp [Node.part_of_inner stmt.node_inner]
  constructor
  · rw [stmt.outline_node, deadIn, stmt.outline_scopes around (by simp [parts_of_exit leaves]),
      parts_of_exit leaves]
    rfl
  · rw [Node.outline_eq _ _ root]
    refine List.forall_mem_cons.mpr ⟨fun _ => by rw [stmt.span_node, start], ?_⟩
    intro found member live
    obtain ⟨child, known, member⟩ := List.mem_flatMap.mp member
    have unmarked : child.Throughout (Node.Bears fun _ => False) :=
      children_of_exit leaves child known
    have part := stmt.node.children_part child known
    exact (unmarked.outline _ (by simp [part]) found member _ live).elim

theorem Settled.marks_below {targets : List Nat} {flow : Flow} {body : List Stmt}
    (settled : Settled targets flow body) {stmt : Stmt} (member : stmt ∈ body)
    (dead : stmt.reach ≠ .live) : stmt.node.Throughout (Node.Bears (· = stmt.reach)) := by
  have marks := settled.uniform member dead
  exact Stmt.throughout_marks (by simpa [Stmt.listStatements] using marks) stmt
    (List.mem_singleton_self stmt)

/-- A live scope of a body is settled from its start, unless nothing is marked in it. -/
def CodeScope.Followed (scope : CodeScope) : Prop :=
  scope.info.reach = .live →
    (∀ stmt ∈ scope.body, stmt.reach = .live) ∨ ∃ targets, Settled targets {} scope.body

namespace Node

theorem settled_below {body : List Stmt} {targets : List Nat}
    {around : List Node} (settled : Settled targets {} body) (row : Stmt.InRow body)
    (below : ∀ stmt ∈ body, stmt.node.Parted around) {span : Span}
    (own : span ∈ Stmt.deadSpans none body) {stmt : Stmt} (member : stmt ∈ body) :
    (∀ other ∈ deadIn (stmt.node.outline around), span.Clear other) ∧
      ∀ found ∈ stmt.node.outline around, found.node.reach? = some .live →
        ¬ span.Holds found.node.span.start.offset := by
  have parted := below stmt member
  have same : stmt.node.span.start.offset = stmt.start := by rw [stmt.span_node, Stmt.start]
  rcases settled.beside row own member with dead | ⟨leaves, starts⟩ | ahead | behind
  · have marks : ∀ found ∈ stmt.node.outline around, found.node.Bears (· = stmt.reach) :=
      (settled.marks_below member dead).outline around (by simp [part_of_inner stmt.node_inner])
    have none : deadIn (stmt.node.outline around) = [] :=
      dead_in_nil fun found inside mark own => marks found inside mark own ▸ dead
    rw [none]
    exact ⟨List.forall_mem_nil _, fun found inside live => absurd (marks found inside _ live).symm dead⟩
  · obtain ⟨none, marked⟩ := Stmt.outline_of_exit leaves around
    rw [none]
    refine ⟨List.forall_mem_nil _, fun found inside live holds => ?_⟩
    rw [marked found inside live] at holds
    exact Nat.not_lt_of_le holds.1 starts
  · rw [← stmt.span_node] at ahead
    refine ⟨fun other inside => .inr ?_, fun found inside _ holds => ?_⟩
    · have bounds := parted.inside other inside
      omega
    · have bounds := parted.starts found inside
      exact Nat.not_lt_of_le holds.1 (Nat.lt_of_le_of_lt bounds.2 ahead)
  · rw [← same] at behind
    refine ⟨fun other inside => .inl ?_, fun found inside _ holds => ?_⟩
    · have bounds := parted.inside other inside
      omega
    · have bounds := parted.starts found inside
      exact Nat.not_lt_of_le (Nat.le_trans behind bounds.1) holds.2

theorem parted_of_settled {info : ScopeInfo} {body : List Stmt} {targets : List Nat}
    {around : List Node} (settled : Settled targets {} body) (live : info.reach = .live)
    (orderly : (Node.scope info body).Throughout Orderly)
    (below : ∀ child ∈ (Node.scope info body).children,
      child.Parted (.scope info body :: around)) : (Node.scope info body).Parted around := by
  have row := orderly.row
  have parted : ∀ stmt ∈ body, stmt.node.Parted (.scope info body :: around) :=
    fun stmt member => below _ (List.mem_map_of_mem member)
  have within : ∀ stmt ∈ body, info.span.Covers stmt.span := fun stmt member =>
    stmt.span_node ▸ orderly.self.within _ (List.mem_map_of_mem member)
  have own : (Node.scope info body).scope?.toList.flatMap CodeScope.deadSpans =
      Stmt.deadSpans none body := by
    simp [scope?, CodeScope.deadSpans, live]
  refine .of_children (by simp [isScript]) orderly.self below ?_ ?_ ?_
  all_goals rw [own]
  · intro span member
    obtain ⟨front, first, run, back, whole, rfl⟩ := Stmt.mem_dead_spans member
    have hull := Stmt.covering_hull first run
    obtain ⟨stmt, known, starts⟩ := settled.entered row member
    have begun := (within stmt known).1
    have onward := row.forward first (whole.subset List.mem_cons_self)
    have covered := hull.covers first List.mem_cons_self
    have stops : (Stmt.covering first.span run).stop.offset ≤ info.span.stop.offset :=
      hull.stop_le fun found inside => (within found (whole.subset inside)).2
    unfold Stmt.start at starts onward
    unfold Span.Covers at covered
    simp only [Node.span]
    omega
  · exact (@Stmt.dead_spans_rising none body row (by simp)).imp .inl
  · intro span member
    exact List.forall_mem_map.mpr fun stmt known => settled_below settled row parted member known

/-- The spans of dead code in an orderly node do not touch, and nothing live starts in them. -/
theorem parted {node : Node} (orderly : node.Throughout Orderly)
    (followed : node.Throughout fun node => ∀ scope ∈ node.scope?, scope.Followed)
    {around : List Node} (root : node.isScript = true → around = []) : node.Parted around := by
  induction orderly generalizing around with
  | @intro node here inside induction =>
      have below : ∀ child ∈ node.children, child.Parted (node :: around) := fun child member =>
        induction child member (followed.child member) (by simp [node.children_part child member])
      by_cases plain : node.scope?.toList.flatMap CodeScope.deadSpans = []
      · exact .of_children root here below (by simp [plain]) (by simp [plain])
          (by simp [plain])
      -- Only a scope has dead code of its own, and only a live one that is settled.
      cases node with
      | scope info body =>
          have own : (Node.scope info body).scope?.toList.flatMap CodeScope.deadSpans =
              CodeScope.deadSpans ⟨info, body⟩ := by simp [scope?]
          rw [own] at plain
          have live : info.reach = .live := by
            by_contra dead
            exact plain (if_neg dead)
          rcases followed.self _ rfl live with unmarked | ⟨targets, settled⟩
          · exact absurd ((if_pos live).trans (Stmt.dead_spans_all_live unmarked)) plain
          · exact parted_of_settled settled live (.intro here inside) below
      | _ => exact absurd rfl plain

end Node

end Lsl
