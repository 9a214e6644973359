import Lsl.Proofs.Arena.WellFormed

/-!
Errors that checking finds are handed on upwards: from the node where one is reported the links to
parents are followed, and every node met on the way is flagged. The flags that this leaves in the
arena are those of the script that was checked.
-/

set_option autoImplicit false

namespace Lsl

theorem Node.is_broken_plain (node : Node) : node.plain.isBroken = node.isBroken := by
  cases node <;> rfl

namespace Arena

/-- Flags a node and the nodes around it, in no more than so many steps. -/
def blameWithin : Nat → Arena → Nat → Arena
  | 0, arena, _ => arena
  | steps + 1, arena, id =>
    let flagged := arena.flag id
    match flagged.parent? id with
    | some parent => blameWithin steps flagged parent
    | none => flagged

/-- Flags a node and the nodes around it. -/
def blame (arena : Arena) (id : Nat) : Arena := blameWithin arena.size arena id

/-- The second arena is told apart from the first one by its flags only. -/
structure Reflags (arena marked : Arena) : Prop where
  size : marked.size = arena.size
  parent : ∀ id, marked.parent? id = arena.parent? id

/-- The node is shown where the number is met below the root, if it is read along with the links. -/
inductive Shows (arena : Arena) (root : Nat) (whole : Node) : Nat → Node → Prop
  | self : Shows arena root whole root whole
  | child {id child : Nat} {node inner : Node} (shown : Shows arena root whole id node)
      (paired : (child, inner) ∈ (arena.childrenOf id).zip node.children) :
      Shows arena root whole child inner

section Climbing

variable {arena marked : Arena} {id other : Nat}

theorem flagged_flag (inside : id < marked.size) (other : Nat) :
    (marked.flag id).isFlagged other = true ↔ other = id ∨ marked.isFlagged other = true := by
  simp only [isFlagged, flag, cell_update]
  by_cases same : other = id
  · subst same
    have found : marked.cell? other = some marked.cells[other] := List.getElem?_eq_getElem inside
    simp [found]
  · cases marked.cell? other <;> simp [same]

theorem Reflags.refl (arena : Arena) : arena.Reflags arena := ⟨rfl, fun _ => rfl⟩

theorem Reflags.flag (same : arena.Reflags marked) (id : Nat) : arena.Reflags (marked.flag id) where
  size := by rw [← same.size, Arena.flag, update, Arena.size, List.length_modify, Arena.size]
  parent other := by
    rw [← same.parent, parent?, parent?, Arena.flag, cell_update]
    cases marked.cell? other with
    | none => rfl
    | some cell => simp only [Option.map_some, Option.bind_some]; split <;> rfl

variable (sound : arena.Sound)

include sound

/-- Climbing from a number, one meets the numbers above it. -/
theorem flagged_blame_within {steps : Nat} (same : arena.Reflags marked) (inside : id < arena.size)
    (enough : arena.size ≤ id + steps) :
    arena.Reflags (blameWithin steps marked id) ∧ ∀ other,
      ((blameWithin steps marked id).isFlagged other = true ↔
        arena.Reaches other id ∨ marked.isFlagged other = true) := by
  induction steps generalizing marked id with
  | zero => omega
  | succ steps induction =>
      have flagged := same.flag id
      have first (other : Nat) := flagged_flag (same.size ▸ inside) other
      rw [blameWithin]
      simp only [flagged.parent]
      cases linked : arena.parent? id with
      | none =>
          refine ⟨flagged, fun other => (first other).trans (or_congr_left ⟨?_, fun reached => ?_⟩)⟩
          · rintro rfl
            exact .self
          · by_contra apart
            obtain ⟨parent, above, _⟩ := sound.parent_of_reaches reached (Ne.symm apart)
            rw [linked] at above
            cases above
      | some parent =>
          have listed := sound.child_of_parent linked
          obtain ⟨cell, found, _⟩ := cell_of_children listed
          have higher := sound.child_lt listed
          obtain ⟨kept, climbed⟩ := induction flagged (arena.lt_size found) (by omega)
          refine ⟨kept, fun other => (climbed other).trans ?_⟩
          rw [first other, ← or_assoc]
          refine or_congr_left ⟨?_, fun reached => ?_⟩
          · rintro (above | rfl)
            · exact above.child listed
            · exact .self
          · by_cases own : id = other
            · exact .inr own.symm
            · obtain ⟨upper, above, between, _⟩ := sound.parent_of_reaches reached own
              obtain rfl : parent = upper := Option.some.inj (linked.symm.trans above)
              exact .inl between

theorem flagged_blamed (same : arena.Reflags marked) {ids : List Nat}
    (inside : ∀ id ∈ ids, id < arena.size) :
    (ids.foldl blame marked).isFlagged other = true ↔
      (∃ id ∈ ids, arena.Reaches other id) ∨ marked.isFlagged other = true := by
  induction ids generalizing marked with
  | nil => simp
  | cons id rest induction =>
      rw [List.forall_mem_cons] at inside
      obtain ⟨kept, climbed⟩ := flagged_blame_within sound same inside.1
        (Nat.le_trans (Nat.le_of_eq same.size.symm) (Nat.le_add_left _ id))
      rw [List.foldl_cons, blame, induction kept inside.2, climbed other, List.exists_mem_cons_iff,
        or_left_comm, or_assoc]

end Climbing

namespace Shows

variable {arena : Arena} {root id : Nat} {whole node : Node}

theorem reaches (shown : arena.Shows root whole id node) : arena.Reaches root id := by
  induction shown with
  | self => exact .self
  | child _ paired induction => exact induction.child (List.of_mem_zip paired).1

theorem trans {below : Nat} {inner : Node} (shown : arena.Shows root whole id node)
    (further : arena.Shows id node below inner) : arena.Shows root whole below inner := by
  induction further with
  | self => exact shown
  | child _ paired induction => exact induction.child paired

theorem down (shown : arena.Shows root whole id node) : (id = root ∧ node = whole) ∨
    ∃ child next, (child, next) ∈ (arena.childrenOf root).zip whole.children ∧
      arena.Shows child next id node := by
  induction shown with
  | self => exact .inl ⟨rfl, rfl⟩
  | child _ paired induction =>
      rcases induction with ⟨rfl, rfl⟩ | ⟨first, next, above, further⟩
      · exact .inr ⟨_, _, paired, .self⟩
      · exact .inr ⟨first, next, above, further.child paired⟩

theorem kind (shown : arena.Shows root whole id node)
    (outer : whole.isInner = true ∨ whole.isScript = true) :
    node.isInner = true ∨ node.isScript = true := by
  cases shown with
  | self => exact outer
  | child _ paired => exact .inl (Node.children_inner _ _ (List.of_mem_zip paired).2)

end Shows

theorem paired_unique {ids : List Nat} {nodes : List Node} (distinct : ids.Nodup) {id : Nat}
    {first second : Node} (here : (id, first) ∈ ids.zip nodes)
    (there : (id, second) ∈ ids.zip nodes) : first = second := by
  obtain ⟨place, bound, same⟩ := List.getElem_of_mem here
  obtain ⟨other, limit, alike⟩ := List.getElem_of_mem there
  rw [List.getElem_zip, Prod.mk.injEq] at same alike
  obtain rfl : place = other := (distinct.getElem_inj_iff).mp (same.1.trans alike.1.symm)
  exact same.2.symm.trans alike.2

theorem exists_node_paired {ids : List Nat} {nodes : List Node} (same : ids.length = nodes.length)
    {id : Nat} (member : id ∈ ids) : ∃ node, (id, node) ∈ ids.zip nodes := by
  rw [← List.map_fst_zip (Nat.le_of_eq same)] at member
  obtain ⟨⟨first, node⟩, paired, rfl⟩ := List.mem_map.mp member
  exact ⟨node, paired⟩

theorem exists_id_paired {ids : List Nat} {nodes : List Node} (same : ids.length = nodes.length)
    {node : Node} (member : node ∈ nodes) : ∃ id, (id, node) ∈ ids.zip nodes := by
  rw [← List.map_snd_zip (Nat.le_of_eq same.symm)] at member
  obtain ⟨⟨id, second⟩, paired, rfl⟩ := List.mem_map.mp member
  exact ⟨id, paired⟩

namespace Sound

variable {arena : Arena} {root : Nat} {whole original : Node} (sound : arena.Sound)
  (own : arena.node? root = some original) (same : whole.plain = original.plain)

include sound

theorem shown_unique {id : Nat} {first second : Node} (here : arena.Shows root whole id first)
    (there : arena.Shows root whole id second) : first = second := by
  have above {id child : Nat} {node inner : Node} (shown : arena.Shows root whole id node)
      (paired : (child, inner) ∈ (arena.childrenOf id).zip node.children) : child < root :=
    Nat.lt_of_lt_of_le (sound.child_lt (List.of_mem_zip paired).1) (sound.le_of_reaches shown.reaches)
  induction here generalizing second with
  | self =>
      cases there with
      | self => rfl
      | child shown paired => exact absurd (above shown paired) (Nat.lt_irrefl _)
  | @child parent child node inner shown paired induction =>
      cases there with
      | self => exact absurd (above shown paired) (Nat.lt_irrefl _)
      | child other again =>
          have linked := sound.parent_of_child (List.of_mem_zip paired).1
          rw [sound.parent_of_child (List.of_mem_zip again).1] at linked
          obtain rfl := Option.some.inj linked
          obtain rfl := induction other
          exact paired_unique (sound.children_distinct _) paired again

include own same

theorem shown_plain {id : Nat} {node : Node} (shown : arena.Shows root whole id node) :
    ∃ first, arena.node? id = some first ∧ node.plain = first.plain := by
  induction shown with
  | self => exact ⟨original, own, same⟩
  | @child parent child node inner _ paired induction =>
      obtain ⟨first, known, alike⟩ := induction
      obtain ⟨place, bound, pair⟩ := List.getElem_of_mem paired
      rw [List.getElem_zip, Prod.mk.injEq] at pair
      obtain ⟨rfl, rfl⟩ := pair
      rw [List.length_zip] at bound
      have nodes := sound.nodes_eq known
      have plain : node.children.map Node.plain = first.children.map Node.plain := by
        rw [← Node.children_plain, ← Node.children_plain, alike]
      have count : (arena.childrenOf parent).length = first.children.length := by
        simpa using congrArg List.length nodes
      have here : place < (arena.childrenOf parent).length := by omega
      have behind : place < node.children.length := by omega
      have there : place < first.children.length := by omega
      refine ⟨first.children[place], ?_, ?_⟩
      · simpa [here, there] using congrArg (·[place]?) nodes
      · simpa [there, behind] using congrArg (·[place]?) plain

theorem shown_children {id : Nat} {node : Node} (shown : arena.Shows root whole id node) :
    (arena.childrenOf id).length = node.children.length := by
  obtain ⟨first, known, alike⟩ := sound.shown_plain own same shown
  have plain : node.children.map Node.plain = first.children.map Node.plain := by
    rw [← Node.children_plain, ← Node.children_plain, alike]
  have nodes := congrArg List.length (sound.nodes_eq known)
  have count := congrArg List.length plain
  rw [List.length_map, List.length_map] at nodes count
  exact nodes.trans count.symm

theorem shown_of_reaches {id below : Nat} {node : Node} (shown : arena.Shows root whole id node)
    (reached : arena.Reaches id below) : ∃ inner, arena.Shows id node below inner := by
  induction reached with
  | self => exact ⟨node, .self⟩
  | child _ listed induction =>
      obtain ⟨outer, above⟩ := induction
      have count := sound.shown_children own same (shown.trans above)
      obtain ⟨inner, paired⟩ := exists_node_paired count listed
      exact ⟨inner, above.child paired⟩

theorem shown_errors (kind : whole.isInner = true ∨ whole.isScript = true) {id : Nat} {node : Node}
    (shown : arena.Shows root whole id node) : node.hasErrors = true ↔
      ∃ below inner, arena.Shows id node below inner ∧
        (inner.isBroken = true ∨ inner.isMarked = true) := by
  induction id using Nat.strongRecOn generalizing node with
  | ind id induction =>
      have inside {child : Nat} {inner : Node}
          (paired : (child, inner) ∈ (arena.childrenOf id).zip node.children) :=
        induction child (sound.child_lt (List.of_mem_zip paired).1) (shown.child paired)
      rw [Node.has_errors_eq (shown.kind kind), Bool.or_eq_true, Bool.or_eq_true, List.any_eq_true]
      constructor
      · rintro (here | ⟨next, member, wrong⟩)
        · exact ⟨id, node, .self, here⟩
        · obtain ⟨child, paired⟩ :=
            exists_id_paired (sound.shown_children own same shown) member
          obtain ⟨below, inner, further, found⟩ := (inside paired).mp wrong
          exact ⟨below, inner, (Shows.child .self paired).trans further, found⟩
      · rintro ⟨below, inner, further, found⟩
        rcases further.down with ⟨rfl, rfl⟩ | ⟨child, next, paired, further⟩
        · exact .inl found
        · exact .inr ⟨next, (List.of_mem_zip paired).2,
            (inside paired).mpr ⟨below, inner, further, found⟩⟩

theorem blamed_flags (kind : whole.isInner = true ∨ whole.isScript = true) {ids : List Nat}
    (marked : ∀ id, id ∈ ids ↔ ∃ node, arena.Shows root whole id node ∧ node.isMarked = true)
    {id : Nat} {node : Node} (shown : arena.Shows root whole id node) :
    (ids.foldl blame arena).isFlagged id = node.hasErrors := by
  have present : ∀ id ∈ ids, id < arena.size := by
    intro id member
    obtain ⟨node, found, _⟩ := (marked id).mp member
    obtain ⟨first, known, _⟩ := sound.shown_plain own same found
    obtain ⟨cell, here, _⟩ := Option.map_eq_some_iff.mp known
    exact arena.lt_size here
  rw [Bool.eq_iff_iff, flagged_blamed sound (.refl arena) present, sound.flagged_iff,
    sound.shown_errors own same kind shown]
  constructor
  · rintro (⟨below, member, reached⟩ | ⟨below, first, reached, known, broken⟩)
    · obtain ⟨inner, wrong, found⟩ := (marked below).mp member
      obtain ⟨other, further⟩ := sound.shown_of_reaches own same shown reached
      obtain rfl := sound.shown_unique wrong (shown.trans further)
      exact ⟨below, inner, further, .inr found⟩
    · obtain ⟨inner, further⟩ := sound.shown_of_reaches own same shown reached
      obtain ⟨found, here, alike⟩ := sound.shown_plain own same (shown.trans further)
      obtain rfl := Option.some.inj (known.symm.trans here)
      refine ⟨below, inner, further, .inl ?_⟩
      rw [← Node.is_broken_plain, alike, Node.is_broken_plain, broken]
  · rintro ⟨below, inner, further, broken | wrong⟩
    · obtain ⟨first, known, alike⟩ := sound.shown_plain own same (shown.trans further)
      refine .inr ⟨below, first, further.reaches, known, ?_⟩
      rw [← Node.is_broken_plain, ← alike, Node.is_broken_plain, broken]
    · exact .inl ⟨below, (marked below).mpr ⟨inner, shown.trans further, wrong⟩, further.reaches⟩

end Sound

end Arena

/-- Whatever the order in which the nodes that checking marks are blamed, what is flagged in the arena
in the end is what has errors in the script that was checked. -/
theorem checked_flags_climbed (library : Library) (tokens : List Token) :
    let arena := (plant tokens).arena
    let whole := Node.script (check library (parse tokens).1).value
    ∃ root, (plant tokens).root = some root ∧
      ∀ ids : List Nat,
        (∀ id, id ∈ ids ↔ ∃ node, arena.Shows root whole id node ∧ node.isMarked = true) →
        ∀ id node, arena.Shows root whole id node →
          (ids.foldl Arena.blame arena).isFlagged id = node.hasErrors := by
  obtain ⟨root, site, planted, node, errors, keeps⟩ := Planter.script_planted tokens
  obtain ⟨_, known⟩ := keeps.shown root (List.mem_singleton_self root)
  have same : plant tokens = ⟨site.arena, some root.id, site.cursor.errors⟩ := by
    rw [plant, planted]
    rfl
  rw [node] at known
  simp only [same]
  refine ⟨root.id, rfl, fun ids marked id node shown => ?_⟩
  have plain : (Node.script (check library (parse tokens).1).value).plain =
      (Node.script (parse tokens).1).plain :=
    congrArg Node.script (plain_check library (parse tokens).1)
  exact keeps.sound.blamed_flags known plain (.inr rfl) marked shown

end Lsl
