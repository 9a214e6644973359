import Lsl.Proofs.Parsing.Clauses
import Lsl.Proofs.Syntax.Children

/-!
Where the nodes stand that are read between two cursors. All positions come from the tokens, nodes
that are read one behind the other do not overlap, and a node spans the nodes inside of it.
-/

set_option autoImplicit false

namespace Lsl

/-- A span from one of the places to one that is not in front of it. -/
structure Span.Genuine (places : List Position) (span : Span) : Prop where
  start : span.start ∈ places
  stop : span.stop ∈ places
  forward : span.start.offset ≤ span.stop.offset

/-- A node spans its children. Except in the whole script they stand one behind the other. -/
structure Node.Spanning (places : List Position) (node : Node) : Prop where
  genuine : node.span.Genuine places
  within : ∀ child ∈ node.children, node.span.start.offset ≤ child.span.start.offset ∧
    child.span.stop.offset ≤ node.span.stop.offset
  ordered : node.isScript = false → node.children.Pairwise fun first second =>
    first.span.stop.offset ≤ second.span.start.offset

/-- Nodes that stand one behind the other between two offsets, with all that is below them. -/
structure Fills (places : List Position) (low high : Nat) (nodes : List Node) : Prop where
  forward : low ≤ high
  within : ∀ node ∈ nodes, low ≤ node.span.start.offset ∧ node.span.stop.offset ≤ high
  ordered : nodes.Pairwise fun first second => first.span.stop.offset ≤ second.span.start.offset
  spanning : ∀ node ∈ nodes, node.Throughout (Node.Spanning places)

section

variable {places : List Position} {low middle high : Nat} {front back : List Node}

theorem Span.Genuine.merge {first second : Span} (left : first.Genuine places)
    (right : second.Genuine places) : (first.merge second).Genuine places := by
  have forward := left.forward
  have onward := right.forward
  refine ⟨?_, ?_, ?_⟩
  · unfold Span.merge
    dsimp only
    split
    · exact right.start
    · exact left.start
  · unfold Span.merge
    dsimp only
    split
    · exact right.stop
    · exact left.stop
  · unfold Span.merge
    dsimp only
    split <;> split <;> omega

namespace Fills

theorem nil (forward : low ≤ high) : Fills places low high [] :=
  ⟨forward, by simp, .nil, by simp⟩

theorem append (first : Fills places low middle front) (second : Fills places middle high back) :
    Fills places low high (front ++ back) where
  forward := Nat.le_trans first.forward second.forward
  within := by
    have below := first.forward
    have above := second.forward
    intro node member
    rcases List.mem_append.mp member with member | member
    · have bounds := first.within node member
      omega
    · have bounds := second.within node member
      omega
  ordered := by
    refine List.pairwise_append.mpr ⟨first.ordered, second.ordered, ?_⟩
    intro left leftMember right rightMember
    exact Nat.le_trans (first.within left leftMember).2 (second.within right rightMember).1
  spanning := by
    intro node member
    exact (List.mem_append.mp member).elim (first.spanning node) (second.spanning node)

theorem widen {lower upper : Nat} (fills : Fills places low high front) (below : lower ≤ low)
    (above : high ≤ upper) : Fills places lower upper front where
  forward := by
    have forward := fills.forward
    omega
  within := by
    intro node member
    have bounds := fills.within node member
    omega
  ordered := fills.ordered
  spanning := fills.spanning

theorem node {node : Node} (inside : Fills places low high node.children)
    (genuine : node.span.Genuine places) (start : node.span.start.offset ≤ low)
    (stop : high ≤ node.span.stop.offset) :
    Fills places node.span.start.offset node.span.stop.offset [node] where
  forward := genuine.forward
  within := by simp
  ordered := List.pairwise_singleton _ _
  spanning := by
    intro found member
    obtain rfl := List.mem_singleton.mp member
    refine .intro ⟨genuine, ?_, fun _ => inside.ordered⟩ inside.spanning
    intro child member
    have bounds := inside.within child member
    omega

theorem leaf {node : Node} (none : node.children = []) (genuine : node.span.Genuine places) :
    Fills places node.span.start.offset node.span.stop.offset [node] := by
  have inside : Fills places node.span.start.offset node.span.stop.offset node.children := by
    rw [none]
    exact .nil genuine.forward
  exact inside.node genuine (Nat.le_refl _) (Nat.le_refl _)

theorem alone {node : Node} (fills : Fills places low high [node]) :
    low ≤ node.span.start.offset ∧ node.span.stop.offset ≤ high ∧ node.span.Genuine places := by
  have bounds := fills.within node (List.mem_singleton_self _)
  cases fills.spanning node (List.mem_singleton_self _) with
  | intro here below => exact ⟨bounds.1, bounds.2, here.genuine⟩

theorem expr {expr : Expr} (fills : Fills places low high [.expr expr]) :
    low ≤ expr.span.start.offset ∧ expr.span.stop.offset ≤ high ∧ expr.span.Genuine places :=
  fills.alone

theorem tight {node : Node} (fills : Fills places low high [node]) :
    Fills places node.span.start.offset node.span.stop.offset [node] where
  forward := fills.alone.2.2.forward
  within := by simp
  ordered := fills.ordered
  spanning := fills.spanning

theorem merged {node : Node} {first second : Span} {inner outer : Nat}
    (inside : Fills places inner outer node.children) (span : node.span = first.merge second)
    (left : first.Genuine places) (right : second.Genuine places)
    (starts : first.start.offset ≤ inner ∨ second.start.offset ≤ inner)
    (stops : outer ≤ first.stop.offset ∨ outer ≤ second.stop.offset)
    (front : low ≤ first.start.offset ∧ first.stop.offset ≤ high)
    (back : low ≤ second.start.offset ∧ second.stop.offset ≤ high) :
    Fills places low high [node] := by
  have bounds : node.span.start.offset = min first.start.offset second.start.offset ∧
      node.span.stop.offset = max first.stop.offset second.stop.offset := by
    rw [span, Span.merge]
    dsimp only
    constructor
    · split <;> omega
    · split <;> omega
  have whole := inside.node (by rw [span]; exact left.merge right) (by omega) (by omega)
  exact whole.widen (by omega) (by omega)

end Fills

end

/-- The tokens in sight stand on places one behind the other, and so does all that was read and
reported. -/
structure Cursor.Marked (places : List Position) (cursor : Cursor) : Prop where
  genuine : ∀ token ∈ cursor.ahead ++ [cursor.close], token.span.Genuine places
  rising : (cursor.ahead ++ [cursor.close]).Pairwise fun first second =>
    first.span.stop.offset ≤ second.span.start.offset
  closed : cursor.close.kind = .endOfFile
  behind : ∀ place ∈ cursor.behind, place ∈ places ∧ place.offset ≤ cursor.start.offset
  errors : ∀ error ∈ cursor.errors, error.span.Genuine places

/-- A cursor is further on than another. Unless it sees the same tokens, one of them is behind
it. -/
structure Cursor.Further (cursor after : Cursor) : Prop where
  start : cursor.start.offset ≤ after.start.offset
  stop : cursor.stop.offset ≤ after.stop.offset
  close : after.close = cursor.close
  moved : after.ahead = cursor.ahead ∨ cursor.start.offset ≤ after.stop.offset

namespace Cursor

variable {places : List Position} {cursor middle after : Cursor}

theorem Further.refl (cursor : Cursor) : cursor.Further cursor :=
  ⟨Nat.le_refl _, Nat.le_refl _, rfl, .inl rfl⟩

theorem Further.trans (first : cursor.Further middle) (second : middle.Further after) :
    cursor.Further after where
  start := Nat.le_trans first.start second.start
  stop := Nat.le_trans first.stop second.stop
  close := second.close.trans first.close
  moved := by
    rcases first.moved with same | moved
    · rcases second.moved with again | moved
      · exact .inl (again.trans same)
      · exact .inr (Nat.le_trans first.start moved)
    · exact .inr (Nat.le_trans moved second.stop)

namespace Marked

theorem current_genuine (marked : cursor.Marked places) : cursor.current.span.Genuine places := by
  apply marked.genuine
  rw [current]
  cases cursor.ahead with
  | nil => exact List.mem_singleton_self _
  | cons token rest => exact List.mem_append_left _ List.mem_cons_self

theorem start_mem (marked : cursor.Marked places) : cursor.start ∈ places :=
  marked.current_genuine.start

theorem stop_mem (marked : cursor.Marked places) : cursor.stop ∈ places := by
  unfold stop
  cases found : cursor.behind with
  | none => exact marked.start_mem
  | some place => exact (marked.behind place found).1

theorem stop_le_start (marked : cursor.Marked places) :
    cursor.stop.offset ≤ cursor.start.offset := by
  unfold stop
  cases found : cursor.behind with
  | none => exact Nat.le_refl _
  | some place => exact (marked.behind place found).2

theorem step (marked : cursor.Marked places) :
    cursor.step.Marked places ∧ cursor.Further cursor.step ∧
      (cursor.kind ≠ .endOfFile → cursor.step.stop = cursor.current.span.stop) := by
  have earlier := marked.stop_le_start
  cases ahead : cursor.ahead with
  | nil =>
      have same : cursor.step = cursor := by simp [Cursor.step, ahead]
      have ended : cursor.kind = .endOfFile := by
        simpa [kind, current, ahead] using marked.closed
      rw [same]
      exact ⟨marked, .refl cursor, fun open_ => absurd ended open_⟩
  | cons token rest =>
      have stepped : cursor.step =
          { cursor with ahead := rest, behind := some token.span.stop } := by
        simp [Cursor.step, ahead]
      have genuine := marked.genuine
      have rising := marked.rising
      rw [ahead, List.cons_append] at genuine rising
      have here := genuine token List.mem_cons_self
      have current : cursor.current = token := by simp [Cursor.current, ahead]
      have start : cursor.start = token.span.start := by rw [Cursor.start, current]
      have stop : cursor.step.stop = token.span.stop := by simp [stepped, Cursor.stop]
      have next : token.span.stop.offset ≤ cursor.step.start.offset := by
        refine (List.pairwise_cons.mp rising).1 cursor.step.current ?_
        rw [stepped, Cursor.current]
        cases rest with
        | nil => exact List.mem_singleton_self _
        | cons second others => exact List.mem_append_left _ List.mem_cons_self
      have forward := here.forward
      refine ⟨⟨?_, ?_, ?_, ?_, ?_⟩, ⟨?_, ?_, ?_, .inr ?_⟩, fun _ => by rw [stop, current]⟩
      · rw [stepped]
        exact fun token member => genuine token (List.mem_cons_of_mem _ member)
      · rw [stepped]
        exact (List.pairwise_cons.mp rising).2
      · rw [stepped]
        exact marked.closed
      · intro place member
        have same : place = token.span.stop := by simpa [stepped] using member.symm
        rw [same]
        exact ⟨here.stop, next⟩
      · rw [stepped]
        exact marked.errors
      · rw [start]
        omega
      · rw [stop]
        rw [start] at earlier
        omega
      · rw [stepped]
      · rw [stop, start]
        exact forward

theorem forward (marked : cursor.Marked places) (goes : cursor.kind ≠ .endOfFile) :
    cursor.start.offset ≤ cursor.step.stop.offset := by
  rw [(marked.step).2.2 goes]
  exact marked.current_genuine.forward

theorem spanned (marked : cursor.Marked places) {start : Position} (known : start ∈ places)
    (forward : start.offset ≤ cursor.stop.offset) : (cursor.spanFrom start).Genuine places :=
  ⟨known, marked.stop_mem, forward⟩

end Marked

end Cursor

namespace Cursor

variable {places : List Position} {cursor middle place after : Cursor}

/-- Reading goes further on over marked tokens. -/
def Onward (places : List Position) (cursor after : Cursor) : Prop :=
  cursor.Marked places → after.Marked places ∧ cursor.Further after

namespace Onward

theorem refl : cursor.Onward places cursor := fun marked => ⟨marked, .refl cursor⟩

theorem numbered : cursor.Onward places cursor.numbered := by
  intro marked
  exact ⟨⟨marked.genuine, marked.rising, marked.closed, marked.behind, marked.errors⟩,
    Nat.le_refl _, Nat.le_refl _, rfl, .inl rfl⟩

theorem step : cursor.Onward places cursor.step := by
  intro marked
  obtain ⟨stepped, further, _⟩ := marked.step
  exact ⟨stepped, further⟩

theorem trans (front : cursor.Onward places middle) (back : middle.Onward places after) :
    cursor.Onward places after := by
  intro marked
  obtain ⟨remarked, further⟩ := front marked
  obtain ⟨again, more⟩ := back remarked
  exact ⟨again, further.trans more⟩

end Onward

/-- What is reported stands where a token does. -/
theorem Carries.onward (places : List Position) : Carries (Onward places) where
  refl _ := .refl
  trans := .trans
  step _ := .step
  numbered _ := .numbered
  reported := by
    intro cursor failed error front raises marked
    obtain ⟨remarked, further⟩ := front marked
    obtain ⟨place, onward, same⟩ := raises.place
    refine ⟨⟨remarked.genuine, remarked.rising, remarked.closed, remarked.behind, ?_⟩,
      further.start, further.stop, further.close, further.moved⟩
    intro found member
    rcases List.mem_append.mp member with member | member
    · exact remarked.errors found member
    · rw [List.mem_singleton.mp member, same]
      exact (onward marked).1.current_genuine

theorem Passes.onward (passed : cursor.Passes after) : cursor.Onward places after :=
  passed.carried (.onward places)

/-- Between the cursors nodes were read, which fill what is between an end of either. -/
structure Holds (places : List Position) (low high : Cursor → Position) (cursor after : Cursor)
    (nodes : List Node) : Prop where
  onward : cursor.Onward places after
  fills : cursor.Marked places → Fills places (low cursor).offset (high after).offset nodes

/-- The nodes start where the one cursor does and stop where the other has read to. -/
abbrev Covers (places : List Position) (cursor after : Cursor) (nodes : List Node) : Prop :=
  Holds places start stop cursor after nodes

/-- The nodes stop in front of the token that comes next. -/
abbrev Spans (places : List Position) (cursor after : Cursor) (nodes : List Node) : Prop :=
  Holds places start start cursor after nodes

/-- The nodes go on from where the one cursor has read to. -/
abbrev Trails (places : List Position) (cursor after : Cursor) (nodes : List Node) : Prop :=
  Holds places stop stop cursor after nodes

namespace Holds

variable {low high : Cursor → Position} {nodes back : List Node} {node : Node}

theorem none : cursor.Spans places cursor [] :=
  ⟨.refl, fun _ => .nil (Nat.le_refl _)⟩

theorem bare (advances : cursor.Advances after) : cursor.Covers places after [] := by
  refine ⟨advances.passes.onward, fun marked => .nil ?_⟩
  have further := (advances.2.onward (marked.step).1).2.stop
  exact Nat.le_trans (marked.forward advances.1.2.2) further

theorem loose (holds : Holds places low stop cursor after nodes) :
    Holds places low start cursor after nodes :=
  ⟨holds.onward, fun marked =>
    (holds.fills marked).widen (Nat.le_refl _) (holds.onward marked).1.stop_le_start⟩

theorem trailing (holds : Holds places start high cursor after nodes) :
    Holds places stop high cursor after nodes :=
  ⟨holds.onward, fun marked =>
    (holds.fills marked).widen marked.stop_le_start (Nat.le_refl _)⟩

theorem later (holds : Holds places start high middle after nodes)
    (front : cursor.Onward places middle) : Holds places start high cursor after nodes := by
  refine ⟨front.trans holds.onward, fun marked => ?_⟩
  obtain ⟨remarked, further⟩ := front marked
  exact (holds.fills remarked).widen further.start (Nat.le_refl _)

theorem longer (holds : Holds places low stop cursor middle nodes)
    (back : middle.Onward places after) : Holds places low stop cursor after nodes := by
  refine ⟨holds.onward.trans back, fun marked => ?_⟩
  have further := (back (holds.onward marked).1).2
  exact (holds.fills marked).widen (Nat.le_refl _) further.stop

theorem closed (holds : Holds places low start cursor middle nodes) {kind : TokenKind}
    (found : middle.kind = kind) (goes : kind ≠ .endOfFile) :
    Holds places low stop cursor middle.step nodes := by
  refine ⟨holds.onward.trans .step, fun marked => ?_⟩
  have forward := (holds.onward marked).1.forward (found ▸ goes)
  exact (holds.fills marked).widen (Nat.le_refl _) forward

/-- What is read further on stands behind what was read before. -/
theorem append (first : Holds places low start cursor middle nodes)
    (gap : middle.Onward places place) (second : Holds places start high place after back) :
    Holds places low high cursor after (nodes ++ back) := by
  have others := second.later gap
  refine ⟨first.onward.trans others.onward, fun marked => ?_⟩
  exact (first.fills marked).append (others.fills (first.onward marked).1)

theorem trail (first : Holds places low stop cursor middle nodes)
    (second : Holds places stop high middle after back) :
    Holds places low high cursor after (nodes ++ back) := by
  refine ⟨first.onward.trans second.onward, fun marked => ?_⟩
  exact (first.fills marked).append (second.fills (first.onward marked).1)

theorem around (inside : cursor.Covers places after node.children)
    (span : node.span = after.spanFrom cursor.start) : cursor.Covers places after [node] := by
  refine ⟨inside.onward, fun marked => ?_⟩
  have fills := inside.fills marked
  have genuine := (inside.onward marked).1.spanned marked.start_mem fills.forward
  have whole := fills.node (by rw [span]; exact genuine)
    (by rw [span]; exact Nat.le_refl _) (by rw [span]; exact Nat.le_refl _)
  rw [span] at whole
  exact whole

theorem token (plain : cursor.kind.Plain) (none : node.children = [])
    (span : node.span = cursor.current.span) : cursor.Covers places cursor.step [node] := by
  refine ⟨.step, fun marked => ?_⟩
  have stop := (marked.step).2.2 plain.2.2
  have leaf := Fills.leaf none (by rw [span]; exact marked.current_genuine)
  refine leaf.widen ?_ ?_
  · rw [span]
    exact Nat.le_refl _
  · rw [span, stop]

end Holds

/-- Between the cursors stands what has this span. -/
structure Stands (places : List Position) (cursor after : Cursor) (span : Span) : Prop where
  onward : cursor.Onward places after
  bounds : cursor.Marked places → span.Genuine places ∧
    cursor.start.offset ≤ span.start.offset ∧ span.stop.offset ≤ after.stop.offset

namespace Stands

variable {first second : Span} {node : Node}

theorem token (plain : cursor.kind.Plain) :
    cursor.Stands places cursor.step cursor.current.span := by
  refine ⟨.step, fun marked => ⟨marked.current_genuine, Nat.le_refl _, ?_⟩⟩
  rw [(marked.step).2.2 plain.2.2]

theorem of_node (holds : cursor.Covers places after [node]) :
    cursor.Stands places after node.span := by
  refine ⟨holds.onward, fun marked => ?_⟩
  obtain ⟨above, below, genuine⟩ := (holds.fills marked).alone
  exact ⟨genuine, above, below⟩

theorem later (stands : middle.Stands places after first) (front : cursor.Onward places middle) :
    cursor.Stands places after first := by
  refine ⟨front.trans stands.onward, fun marked => ?_⟩
  obtain ⟨remarked, further⟩ := front marked
  obtain ⟨genuine, above, below⟩ := stands.bounds remarked
  exact ⟨genuine, Nat.le_trans further.start above, below⟩

theorem merged (front : cursor.Stands places middle first) (back : middle.Stands places after second)
    {low high : Nat} (span : node.span = first.merge second)
    (inside : cursor.Marked places → Fills places low high node.children)
    (starts : low = first.start.offset ∨ low = second.start.offset)
    (stops : high = first.stop.offset ∨ high = second.stop.offset) :
    cursor.Covers places after [node] := by
  refine ⟨front.onward.trans back.onward, fun marked => ?_⟩
  obtain ⟨remarked, further⟩ := front.onward marked
  obtain ⟨left, above, below⟩ := front.bounds marked
  obtain ⟨right, later, stop⟩ := back.bounds remarked
  have onward := (back.onward remarked).2.stop
  have earlier := remarked.stop_le_start
  have forward := left.forward
  exact (inside marked).merged span left right (by omega) (by omega) ⟨above, by omega⟩
    ⟨by omega, stop⟩

end Stands

end Cursor

end Lsl
