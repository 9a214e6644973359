import Lsl.Proofs.Arena.Links
import Lsl.Proofs.Syntax.Plain
import Mathlib.Data.List.Perm.Subperm

/-!
Walks down a tree in an arena. A walk takes the next number from a stack and puts the numbers of the
children in its place. In a sound arena it comes past each node below the first one once, a node
before those inside of it.
-/

set_option autoImplicit false

namespace Lsl

namespace Arena

section

variable (arena : Arena)

/-- The numbers that a walk of no more than so many steps comes past. The top of the stack is its
first number. -/
def walk : Nat → List Nat → List Nat
  | 0, _ => []
  | _ + 1, [] => []
  | steps + 1, id :: stack => id :: walk steps (arena.childrenOf id ++ stack)

/-- The node with the number and every node below it. -/
def descendants (id : Nat) : List Nat := arena.walk arena.size [id]

/-- The second number is met below the first one. -/
inductive Reaches (top : Nat) : Nat → Prop
  | self : Reaches top top
  | child {id child : Nat} (reached : Reaches top id) (listed : child ∈ arena.childrenOf id) :
      Reaches top child

/-- A node, and then what is below its children one by one, down to a depth. -/
def listing : Nat → Nat → List Nat
  | 0, _ => []
  | depth + 1, id => id :: (arena.childrenOf id).flatMap (listing depth)

/-- A node and what is below: nothing below has a greater number. -/
def order (id : Nat) : List Nat := arena.listing (id + 1) id

/-- The links below a number are those of the node. -/
inductive Lays : Nat → Node → Prop
  | intro {id : Nat} {node : Node} (same : (arena.childrenOf id).length = node.children.length)
      (below : ∀ pair ∈ (arena.childrenOf id).zip node.children, Lays pair.1 pair.2) : Lays id node

end

variable {arena : Arena}

theorem cell_of_children {id child : Nat} (listed : child ∈ arena.childrenOf id) :
    ∃ cell, arena.cell? id = some cell ∧ child ∈ cell.children := by
  cases found : arena.cell? id with
  | none => simp [childrenOf, found] at listed
  | some cell => exact ⟨cell, rfl, by simpa [childrenOf, found] using listed⟩

theorem Reaches.trans {top middle id : Nat} (first : arena.Reaches top middle)
    (second : arena.Reaches middle id) : arena.Reaches top id := by
  induction second with
  | self => exact first
  | child _ listed induction => exact induction.child listed

theorem Reaches.down {top id : Nat} (reached : arena.Reaches top id) :
    id = top ∨ ∃ child ∈ arena.childrenOf top, arena.Reaches child id := by
  induction reached with
  | self => exact .inl rfl
  | @child middle id _ listed induction =>
      rcases induction with rfl | ⟨child, member, inner⟩
      · exact .inr ⟨id, listed, .self⟩
      · exact .inr ⟨child, member, inner.child listed⟩

theorem map_nodes {α : Type} {ids : List Nat} {nodes : List Node} {first : Nat → α}
    {second : Node → α} (same : ids.map arena.node? = nodes.map some)
    (each : ∀ id ∈ ids, ∀ node ∈ nodes, arena.node? id = some node → first id = second node) :
    ids.map first = nodes.map second := by
  induction ids generalizing nodes with
  | nil =>
      obtain rfl := List.map_eq_nil_iff.mp same.symm
      rfl
  | cons id rest induction =>
      cases nodes with
      | nil => cases same
      | cons node nodes =>
          obtain ⟨known, same⟩ := List.cons.inj same
          have others := induction same fun id member node inside =>
            each id (List.mem_cons_of_mem _ member) node (List.mem_cons_of_mem _ inside)
          rw [List.map_cons, List.map_cons, others,
            each id List.mem_cons_self node List.mem_cons_self known]

namespace Sound

variable (sound : arena.Sound)

include sound

theorem child_lt {id child : Nat} (listed : child ∈ arena.childrenOf id) : child < id := by
  obtain ⟨cell, found, member⟩ := cell_of_children listed
  exact ((sound id cell found).below child member).1

theorem parent_of_child {id child : Nat} (listed : child ∈ arena.childrenOf id) :
    arena.parent? child = some id := by
  obtain ⟨cell, found, member⟩ := cell_of_children listed
  exact ((sound id cell found).below child member).2

theorem children_distinct (id : Nat) : (arena.childrenOf id).Nodup := by
  cases found : arena.cell? id with
  | none => simp [childrenOf, found]
  | some cell => simpa [childrenOf, found] using (sound id cell found).distinct

theorem child_of_parent {id parent : Nat} (linked : arena.parent? id = some parent) :
    id ∈ arena.childrenOf parent := by
  obtain ⟨cell, found, own⟩ := Option.bind_eq_some_iff.mp linked
  exact (sound id cell found).above parent own

theorem le_of_reaches {top id : Nat} (reached : arena.Reaches top id) : id ≤ top := by
  induction reached with
  | self => exact Nat.le_refl _
  | child _ listed induction => exact Nat.le_trans (Nat.le_of_lt (sound.child_lt listed)) induction

theorem parent_of_reaches {top id : Nat} (reached : arena.Reaches top id) (other : id ≠ top) :
    ∃ parent, arena.parent? id = some parent ∧ arena.Reaches top parent ∧ id < parent := by
  cases reached with
  | self => exact absurd rfl other
  | child reached listed =>
      exact ⟨_, sound.parent_of_child listed, reached, sound.child_lt listed⟩

/-- Going up from a number, one comes past no more than one of two siblings. -/
theorem siblings_apart {top first second id : Nat} (firstListed : first ∈ arena.childrenOf top)
    (secondListed : second ∈ arena.childrenOf top) (different : first ≠ second)
    (below : arena.Reaches first id) (other : arena.Reaches second id) : False := by
  have clash {one two : Nat} (oneListed : one ∈ arena.childrenOf top)
      (twoListed : two ∈ arena.childrenOf top) (apart : one ≠ two)
      (inside : arena.Reaches two one) : False := by
    obtain ⟨parent, linked, reached, _⟩ := sound.parent_of_reaches inside apart
    rw [sound.parent_of_child oneListed] at linked
    obtain rfl := Option.some.inj linked
    exact absurd (sound.le_of_reaches reached) (Nat.not_le_of_lt (sound.child_lt twoListed))
  by_cases atFirst : id = first
  · exact clash firstListed secondListed different (atFirst ▸ other)
  · by_cases atSecond : id = second
    · exact clash secondListed firstListed different.symm (atSecond ▸ below)
    · obtain ⟨parent, linked, under, higher⟩ := sound.parent_of_reaches below atFirst
      obtain ⟨same, linkedToo, underToo, _⟩ := sound.parent_of_reaches other atSecond
      obtain rfl : parent = same := Option.some.inj (linked.symm.trans linkedToo)
      exact siblings_apart firstListed secondListed different under underToo
termination_by top - id
decreasing_by
  have lower := sound.le_of_reaches under
  have inside := sound.child_lt firstListed
  omega

theorem listing_eq {depth id : Nat} (deep : id < depth) :
    arena.listing depth id = arena.order id := by
  induction id using Nat.strongRecOn generalizing depth with
  | ind id induction =>
      obtain ⟨depth, rfl⟩ := Nat.exists_eq_succ_of_ne_zero (Nat.ne_zero_of_lt deep)
      rw [order, listing, listing]
      refine congrArg (List.cons id) (List.flatMap_congr fun child listed => ?_)
      have lower := sound.child_lt listed
      rw [induction child lower (Nat.lt_of_lt_of_le lower (Nat.le_of_lt_succ deep)),
        induction child lower lower]

theorem order_eq (id : Nat) :
    arena.order id = id :: (arena.childrenOf id).flatMap arena.order := by
  rw [order, listing]
  exact congrArg (List.cons id)
    (List.flatMap_congr fun child listed => sound.listing_eq (sound.child_lt listed))

theorem mem_order {top id : Nat} : id ∈ arena.order top ↔ arena.Reaches top id := by
  induction top using Nat.strongRecOn generalizing id with
  | ind top induction =>
      rw [sound.order_eq, List.mem_cons, List.mem_flatMap]
      constructor
      · rintro (rfl | ⟨child, listed, inside⟩)
        · exact .self
        · exact Reaches.trans (.child .self listed)
            ((induction child (sound.child_lt listed)).mp inside)
      · intro reached
        rcases reached.down with same | ⟨child, listed, inner⟩
        · exact .inl same
        · exact .inr ⟨child, listed, (induction child (sound.child_lt listed)).mpr inner⟩

theorem order_nodup (id : Nat) : (arena.order id).Nodup := by
  induction id using Nat.strongRecOn with
  | ind id induction =>
      rw [sound.order_eq, List.nodup_cons, List.nodup_flatMap]
      refine ⟨?_, fun child listed => induction child (sound.child_lt listed), ?_⟩
      · intro member
        obtain ⟨child, listed, inside⟩ := List.mem_flatMap.mp member
        have lower := sound.le_of_reaches (sound.mem_order.mp inside)
        exact absurd (sound.child_lt listed) (Nat.not_lt_of_le lower)
      · refine (sound.children_distinct id).imp_of_mem ?_
        intro first second firstListed secondListed different
        refine List.disjoint_left.mpr ?_
        intro found inFirst inSecond
        exact sound.siblings_apart firstListed secondListed different (sound.mem_order.mp inFirst)
          (sound.mem_order.mp inSecond)

theorem order_length {id : Nat} (inside : id < arena.size) :
    (arena.order id).length ≤ arena.size := by
  have bounded : arena.order id ⊆ List.range arena.size := by
    intro found member
    have lower := sound.le_of_reaches (sound.mem_order.mp member)
    exact List.mem_range.mpr (Nat.lt_of_le_of_lt lower inside)
  simpa using (List.subperm_of_subset (sound.order_nodup id) bounded).length_le

theorem walk_eq (steps : Nat) (ids stack : List Nat)
    (enough : (ids.flatMap arena.order).length ≤ steps) :
    arena.walk steps (ids ++ stack) = ids.flatMap arena.order ++
      arena.walk (steps - (ids.flatMap arena.order).length) stack := by
  induction steps generalizing ids with
  | zero =>
      cases ids with
      | nil => simp
      | cons id rest =>
          rw [List.flatMap_cons, sound.order_eq] at enough
          simp at enough
  | succ steps induction =>
      cases ids with
      | nil => simp
      | cons id rest =>
          have grouped : (id :: rest).flatMap arena.order =
              id :: (arena.childrenOf id ++ rest).flatMap arena.order := by
            rw [List.flatMap_cons, sound.order_eq, List.cons_append, List.flatMap_append]
          rw [grouped, List.length_cons] at enough ⊢
          rw [List.cons_append, walk, ← List.append_assoc,
            induction _ (Nat.le_of_succ_le_succ enough), Nat.succ_sub_succ, List.cons_append]

theorem walk_single {steps id : Nat} (enough : (arena.order id).length ≤ steps) :
    arena.walk steps [id] = arena.order id := by
  have ended : ∀ more, arena.walk more [] = [] := fun more => by cases more <;> rfl
  have whole := sound.walk_eq steps [id] [] (by simpa using enough)
  simpa [ended] using whole

theorem descendants_eq_order {id : Nat} (inside : id < arena.size) :
    arena.descendants id = arena.order id :=
  sound.walk_single (sound.order_length inside)

theorem flagged_iff {id : Nat} : arena.isFlagged id = true ↔
    ∃ below node, arena.Reaches id below ∧ arena.node? below = some node ∧
      node.isBroken = true := by
  induction id using Nat.strongRecOn with
  | ind id induction =>
      have inside : ∀ child ∈ arena.childrenOf id, (arena.isFlagged child = true ↔
          ∃ below node, arena.Reaches child below ∧ arena.node? below = some node ∧
            node.isBroken = true) :=
        fun child listed => induction child (sound.child_lt listed)
      cases found : arena.cell? id with
      | none =>
          have alone : ∀ below, arena.Reaches id below → below = id := by
            intro below reached
            rcases reached.down with same | ⟨child, listed, _⟩
            · exact same
            · simp [childrenOf, found] at listed
          have absent : arena.node? id = none := by simp [node?, found]
          constructor
          · simp [isFlagged, found]
          · rintro ⟨below, node, reached, known, _⟩
            rw [alone below reached, absent] at known
            cases known
      | some cell =>
          have children : arena.childrenOf id = cell.children := by simp [childrenOf, found]
          have own : arena.node? id = some cell.node := by simp [node?, found]
          have flag : arena.isFlagged id = cell.hasErrors := by simp [isFlagged, found]
          rw [flag, (sound id cell found).flag, Bool.or_eq_true, List.any_eq_true, ← children]
          constructor
          · rintro (broken | ⟨child, listed, flagged⟩)
            · exact ⟨id, cell.node, .self, own, broken⟩
            · obtain ⟨below, node, reached, known, broken⟩ := (inside child listed).mp flagged
              exact ⟨below, node, Reaches.trans (.child .self listed) reached, known, broken⟩
          · rintro ⟨below, node, reached, known, broken⟩
            rcases reached.down with rfl | ⟨child, listed, inner⟩
            · rw [own] at known
              obtain rfl := Option.some.inj known
              exact .inl broken
            · exact .inr ⟨child, listed, (inside child listed).mpr ⟨below, node, inner, known, broken⟩⟩

theorem nodes_eq {id : Nat} {node : Node} (own : arena.node? id = some node) :
    (arena.childrenOf id).map arena.node? = node.children.map some := by
  obtain ⟨cell, found, rfl⟩ := Option.map_eq_some_iff.mp own
  simpa [childrenOf, found] using (sound id cell found).nodes

theorem flagged_eq {id : Nat} {node : Node} (own : arena.node? id = some node)
    (kind : node.isInner = true ∨ node.isScript = true) : arena.isFlagged id = node.hasErrors := by
  induction id using Nat.strongRecOn generalizing node with
  | ind id induction =>
      have flags : (arena.childrenOf id).map arena.isFlagged = node.children.map Node.hasErrors :=
        map_nodes (sound.nodes_eq own) fun child listed inner inside known =>
          induction child (sound.child_lt listed) known (.inl (node.children_inner inner inside))
      have below : (arena.childrenOf id).any arena.isFlagged = node.children.any Node.hasErrors := by
        simpa [Function.comp_def] using congrArg (List.any · fun flag => flag) flags
      obtain ⟨cell, found, rfl⟩ := Option.map_eq_some_iff.mp own
      have fits := sound id cell found
      have children : arena.childrenOf id = cell.children := by simp [childrenOf, found]
      have flag : arena.isFlagged id = cell.hasErrors := by simp [isFlagged, found]
      rw [flag, fits.flag, Node.has_errors_eq kind, fits.clean, Bool.or_false, ← children, below]

theorem reaches_all {top : Nat} (single : ∀ id, arena.Loose id → id = top) {id : Nat}
    (inside : id < arena.size) : arena.Reaches top id := by
  obtain ⟨cell, found⟩ : ∃ cell, arena.cell? id = some cell :=
    ⟨arena.cells[id], List.getElem?_eq_getElem inside⟩
  cases linked : cell.parent with
  | none => exact single id ⟨cell, found, linked⟩ ▸ .self
  | some parent =>
      have listed := sound.child_of_parent (by rw [parent?, found]; exact linked)
      obtain ⟨outer, known, _⟩ := cell_of_children listed
      exact (reaches_all single (arena.lt_size known)).child listed
termination_by arena.size - id
decreasing_by
  have higher := sound.child_lt listed
  have bounded := arena.lt_size known
  omega

theorem order_nodes {id : Nat} {node : Node} (own : arena.node? id = some node) {around : List Node}
    (root : node.isScript = true → around = []) :
    (arena.order id).map arena.node? = (node.outline around).map fun inner => some inner.node := by
  induction id using Nat.strongRecOn generalizing node around with
  | ind id induction =>
      have below : (arena.childrenOf id).map (fun child => (arena.order child).map arena.node?) =
          node.children.map fun child =>
            (child.outline (node :: around)).map fun inner => some inner.node :=
        map_nodes (sound.nodes_eq own) fun child listed inner inside known =>
          induction child (sound.child_lt listed) known
            fun whole => by simp [node.children_part inner inside] at whole
      rw [sound.order_eq, node.outline_eq around root, List.map_cons, List.map_cons, own,
        List.map_flatMap, List.map_flatMap, List.flatMap_def, List.flatMap_def, below]

/-- The links below a number are those of its node, and of every node that is told apart from it
only by what checking finds out. -/
theorem lays {id : Nat} {node other : Node} (own : arena.node? id = some node)
    (same : other.plain = node.plain) : arena.Lays id other := by
  induction id using Nat.strongRecOn generalizing node other with
  | ind id induction =>
      have nodes := sound.nodes_eq own
      have plain : other.children.map Node.plain = node.children.map Node.plain := by
        rw [← Node.children_plain, ← Node.children_plain, same]
      have count : (arena.childrenOf id).length = node.children.length := by
        simpa using congrArg List.length nodes
      have length : other.children.length = node.children.length := by
        simpa using congrArg List.length plain
      refine .intro (count.trans length.symm) ?_
      intro pair member
      obtain ⟨place, bound, rfl⟩ := List.getElem_of_mem member
      rw [List.getElem_zip]
      rw [List.length_zip] at bound
      have here : place < (arena.childrenOf id).length := by omega
      have there : place < node.children.length := by omega
      have behind : place < other.children.length := by omega
      have known : arena.node? (arena.childrenOf id)[place] = some node.children[place] := by
        simpa [here, there] using congrArg (·[place]?) nodes
      have alike : other.children[place].plain = node.children[place].plain := by
        simpa [there, behind] using congrArg (·[place]?) plain
      exact induction _ (sound.child_lt (List.getElem_mem here)) known alike

end Sound

end Arena

end Lsl
