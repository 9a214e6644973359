import Lsl.Proofs.Flow.Jumps
import Lsl.Proofs.Syntax.Relocation
import Mathlib.Order.Monotone.Basic

/-!
Dead code of a body whose places have new numbers. Where the new numbers are in the order of the old
ones, and the labels that jumps go to are the same, the same statements are dead.
-/

set_option autoImplicit false

namespace Lsl

/-- Statements have new numbers in the order of the old ones. -/
structure Relocation.Ordered (relocation : Relocation) : Prop where
  rising : StrictMono relocation.inner
  plain : relocation.plain = relocation.inner

/-- The flow at the new places. -/
structure Flow.Moves (place : Nat → Nat) (flow other : Flow) : Prop where
  dead : other.dead = flow.dead
  pending : other.pending = flow.pending.map place
  region : other.region.isSome = flow.region.isSome

/-- What is settled at the new places, with as many regions of dead code. -/
structure Settles {α : Type} (move : α → α) (result other : α × List Span) : Prop where
  value : other.1 = move result.1
  regions : other.2.length = result.2.length

/-- The targets of jumps are the same as far as labels of the body are concerned. -/
def AimsAlike (place : Nat → Nat) (targets others : List Nat) (body : List Stmt) : Prop :=
  ∀ stmt ∈ Stmt.listStatements body, ∀ start, stmt.labelStart? = some start →
    (place start ∈ others ↔ start ∈ targets)

namespace Flow.Moves

variable {relocation : Relocation} {flow other : Flow}

theorem start (place : Nat → Nat) (flow : Flow) :
    Moves place { pending := flow.pending } { pending := flow.pending.map place } :=
  ⟨rfl, rfl, rfl⟩

variable (moves : Moves relocation.inner flow other)

include moves

theorem meet (ordered : relocation.Ordered) (start : Nat) :
    Moves relocation.inner (flow.meet start) (other.meet (relocation.inner start)) := by
  refine ⟨moves.dead, ?_, moves.region⟩
  simp only [Flow.meet, moves.pending, List.filter_map]
  refine congrArg _ (List.filter_congr fun label _ => ?_)
  simp [ordered.rising.injective.eq_iff]

theorem reach : other.reach = flow.reach := by
  simp [Flow.reach, moves.pending]

theorem extend (span moved : Span) :
    Moves relocation.inner (flow.extend span) (other.extend moved) := by
  have region := moves.region
  unfold Flow.extend
  cases known : flow.region <;> cases found : other.region
  · exact ⟨moves.dead, moves.pending, rfl⟩
  · simp [known, found] at region
  · simp [known, found] at region
  · exact ⟨moves.dead, moves.pending, rfl⟩

theorem leave (ordered : relocation.Ordered) (stmt : Stmt) :
    Moves relocation.inner (flow.leave stmt) (other.leave (stmt.recast relocation.bound)) := by
  have stopped : Moves relocation.inner { flow with dead := true } { other with dead := true } :=
    ⟨rfl, moves.pending, moves.region⟩
  cases stmt with
  | giveBack info value => exact stopped
  | changeState info name target => exact stopped
  | jump info name target =>
      cases target with
      | none => exact stopped
      | some target =>
          have forward : relocation.inner target.label > relocation.plain info.span.start.offset ↔
              target.label > info.span.start.offset := by
            rw [ordered.plain]
            exact ordered.rising.lt_iff_lt
          simp only [Stmt.recast, Option.bind_some, Flow.leave]
          change Moves _ (if target.label > info.span.start.offset ∧ target.inReach then _ else _)
            (if relocation.inner target.label > relocation.plain info.span.start.offset ∧
              target.inReach then _ else _)
          simp only [forward]
          split
          · exact ⟨rfl, by simp only [moves.pending, List.map_cons], moves.region⟩
          · exact stopped
  | _ => exact moves

end Flow.Moves

mutual

theorem Stmt.marked_recast (cast : Recast) (reach : Reachability) (stmt : Stmt) :
    (stmt.recast cast).marked reach = (stmt.marked reach).recast cast := by
  cases stmt with
  | block scope body | whileLoop info condition scope body | doLoop info scope body condition
  | forLoop info init condition afterthought scope body =>
      simp only [Stmt.recast, Stmt.marked, Stmt.list_marked_recast]
      rfl
  | branch info first condition scope body rest =>
      simp only [Stmt.recast, Stmt.marked, Stmt.list_marked_recast, Alternatives.marked_recast]
      rfl
  | _ => rfl

theorem Stmt.list_marked_recast (cast : Recast) (reach : Reachability) (body : List Stmt) :
    Stmt.listMarked reach (Stmt.listRecast cast body) =
      Stmt.listRecast cast (Stmt.listMarked reach body) := by
  cases body with
  | nil => rfl
  | cons stmt rest =>
      simp only [Stmt.listRecast, Stmt.listMarked, Stmt.marked_recast, Stmt.list_marked_recast]

theorem Alternatives.marked_recast (cast : Recast) (reach : Reachability) (rest : Alternatives) :
    (rest.recast cast).marked reach = (rest.marked reach).recast cast := by
  cases rest with
  | done => rfl
  | elseIf span condition scope body rest =>
      simp only [Alternatives.recast, Alternatives.marked, Stmt.list_marked_recast,
        Alternatives.marked_recast]
      rfl
  | otherwise span scope body =>
      simp only [Alternatives.recast, Alternatives.marked, Stmt.list_marked_recast]
      rfl

end

section

variable {relocation : Relocation}

theorem Stmt.start_recast (ordered : relocation.Ordered) (stmt : Stmt) :
    (stmt.recast relocation.bound).start = relocation.inner stmt.start := by
  have plain (start : Nat) : relocation.plain start = relocation.inner start :=
    congrFun ordered.plain start
  cases stmt with
  | declare info decl | label info name => rfl
  | _ => exact plain _

theorem Stmt.is_target_recast {targets others : List Nat} {stmt : Stmt}
    (alike : ∀ start, stmt.labelStart? = some start →
      (relocation.inner start ∈ others ↔ start ∈ targets)) :
    (stmt.recast relocation.bound).isTarget others = stmt.isTarget targets := by
  cases stmt with
  | label info name =>
      rw [Bool.eq_iff_iff]
      change others.contains (relocation.inner info.span.start.offset) = true ↔
        targets.contains info.span.start.offset = true
      rw [List.contains_iff_mem, List.contains_iff_mem]
      exact alike info.span.start.offset rfl
  | _ => rfl

theorem AimsAlike.rest {place : Nat → Nat} {targets others : List Nat} {stmt : Stmt}
    {rest : List Stmt} (alike : AimsAlike place targets others (stmt :: rest)) :
    AimsAlike place targets others rest :=
  fun found inside => alike found (Stmt.mem_of_rest inside)

theorem AimsAlike.part {place : Nat → Nat} {targets others : List Nat} {stmt : Stmt}
    {rest : List Stmt} {part : CodeScope} (alike : AimsAlike place targets others (stmt :: rest))
    (member : part ∈ stmt.parts) : AimsAlike place targets others part.body :=
  fun found inside => alike found (Stmt.mem_of_part member inside)

mutual

theorem Stmt.settle_recast (ordered : relocation.Ordered) {targets others : List Nat} (stmt : Stmt)
    (alike : ∀ part ∈ stmt.parts, AimsAlike relocation.inner targets others part.body) :
    Settles (Stmt.recast relocation.bound) (stmt.settle targets)
      ((stmt.recast relocation.bound).settle others) := by
  have begun : Flow.Moves relocation.inner {} {} := ⟨rfl, rfl, rfl⟩
  match stmt with
  | .block scope body =>
      have inner := Stmt.list_settle_recast ordered begun body (alike _ (List.mem_singleton_self _))
      exact ⟨congrArg (Stmt.block _) inner.value, inner.regions⟩
  | .branch info first condition scope body rest =>
      have inner := Stmt.list_settle_recast ordered begun body (alike _ List.mem_cons_self)
      have later := Alternatives.settle_recast ordered rest fun part member =>
        alike part (List.mem_cons_of_mem _ member)
      refine ⟨congrArg₂ (Stmt.branch _ _ _ _) inner.value later.value, ?_⟩
      simp only [Stmt.recast, Stmt.settle, List.length_append, inner.regions, later.regions]
  | .whileLoop info condition scope body =>
      have inner := Stmt.list_settle_recast ordered begun body (alike _ (List.mem_singleton_self _))
      exact ⟨congrArg (Stmt.whileLoop _ _ _) inner.value, inner.regions⟩
  | .doLoop info scope body condition =>
      have inner := Stmt.list_settle_recast ordered begun body (alike _ (List.mem_singleton_self _))
      exact ⟨congrArg (Stmt.doLoop _ _ · _) inner.value, inner.regions⟩
  | .forLoop info init condition afterthought scope body =>
      have inner := Stmt.list_settle_recast ordered begun body (alike _ (List.mem_singleton_self _))
      exact ⟨congrArg (Stmt.forLoop _ _ _ _ _) inner.value, inner.regions⟩
  | .declare _ _ | .perform _ _ | .giveBack _ _ | .jump _ _ _ | .label _ _ | .changeState _ _ _
  | .empty _ | .broken _ => exact ⟨rfl, rfl⟩

theorem Stmt.list_settle_recast (ordered : relocation.Ordered) {targets others : List Nat}
    {flow other : Flow} (moves : Flow.Moves relocation.inner flow other) (body : List Stmt)
    (alike : AimsAlike relocation.inner targets others body) :
    Settles (Stmt.listRecast relocation.bound) (Stmt.listSettle targets flow body)
      (Stmt.listSettle others other (Stmt.listRecast relocation.bound body)) := by
  match body with
  | [] =>
      refine ⟨rfl, ?_⟩
      have region := moves.region
      cases known : flow.region <;> cases found : other.region <;>
        simp_all [Stmt.listRecast, Stmt.listSettle]
  | stmt :: rest =>
      have met := moves.meet ordered stmt.start
      have target := Stmt.is_target_recast fun start label =>
        alike stmt (Stmt.subset_list_statements List.mem_cons_self) start label
      simp only [Stmt.listRecast, Stmt.listSettle, Stmt.start_recast ordered, met.dead, target]
      split
      · split
        · have later := Stmt.list_settle_recast ordered
            (.start relocation.inner (flow.meet stmt.start)) rest alike.rest
          rw [met.pending]
          refine ⟨congrArg (List.cons _) later.value, ?_⟩
          have region := met.region
          simp only [List.length_append, later.regions, Option.length_toList, region]
        · have later := Stmt.list_settle_recast ordered
            (met.extend stmt.span (stmt.recast relocation.bound).span) rest alike.rest
          refine ⟨?_, later.regions⟩
          rw [met.reach, Stmt.marked_recast, later.value]
          rfl
      · have own := Stmt.settle_recast ordered stmt fun part member => alike.part member
        have later := Stmt.list_settle_recast ordered (met.leave ordered stmt) rest alike.rest
        refine ⟨?_, ?_⟩
        · rw [own.value, later.value]
          rfl
        · simp only [List.length_append, own.regions, later.regions]

theorem Alternatives.settle_recast (ordered : relocation.Ordered) {targets others : List Nat}
    (rest : Alternatives)
    (alike : ∀ part ∈ rest.parts, AimsAlike relocation.inner targets others part.body) :
    Settles (Alternatives.recast relocation.bound) (rest.settle targets)
      ((rest.recast relocation.bound).settle others) := by
  have begun : Flow.Moves relocation.inner {} {} := ⟨rfl, rfl, rfl⟩
  match rest with
  | .done => exact ⟨rfl, rfl⟩
  | .elseIf span condition scope body rest =>
      have inner := Stmt.list_settle_recast ordered begun body (alike _ List.mem_cons_self)
      have later := Alternatives.settle_recast ordered rest fun part member =>
        alike part (List.mem_cons_of_mem _ member)
      refine ⟨congrArg₂ (Alternatives.elseIf _ _ _) inner.value later.value, ?_⟩
      simp only [Alternatives.recast, Alternatives.settle, List.length_append, inner.regions,
        later.regions]
  | .otherwise span scope body =>
      have inner := Stmt.list_settle_recast ordered begun body (alike _ (List.mem_singleton_self _))
      exact ⟨congrArg (Alternatives.otherwise _ _) inner.value, inner.regions⟩

end

end

end Lsl
