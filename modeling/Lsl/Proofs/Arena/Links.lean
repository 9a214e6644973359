import Lsl.Proofs.Syntax.Flags

/-!
Trees in an arena. Nodes are added behind those they hold, which are then attached to them: a child
learns the number of its parent, and the parent takes over the flag of a child with an error.
-/

set_option autoImplicit false

namespace Lsl

/-- A node and its links: the numbers of the nodes directly inside, in order, and the number of the
node around it. It is flagged if something in it could not be read. -/
structure Cell where
  node : Node
  children : List Nat
  parent : Option Nat := none
  hasErrors : Bool := false

/-- Nodes by their numbers. -/
structure Arena where
  cells : List Cell := []

namespace Arena

variable (arena : Arena)

/-- The number of the node that is added next. -/
def size : Nat := arena.cells.length

def cell? (id : Nat) : Option Cell := arena.cells[id]?

def node? (id : Nat) : Option Node := (arena.cell? id).map Cell.node

def childrenOf (id : Nat) : List Nat := ((arena.cell? id).map Cell.children).getD []

def parent? (id : Nat) : Option Nat := (arena.cell? id).bind Cell.parent

def isFlagged (id : Nat) : Bool := (arena.cell? id).any Cell.hasErrors

def update (id : Nat) (change : Cell → Cell) : Arena := ⟨arena.cells.modify id change⟩

def flag (id : Nat) : Arena := arena.update id fun cell => { cell with hasErrors := true }

/-- Sets the parent of a child, and hands its flag on. -/
def attach (parent child : Nat) : Arena :=
  let linked := arena.update child fun cell => { cell with parent := some parent }
  if linked.isFlagged child then linked.flag parent else linked

/-- Adds a node, to which the nodes directly inside are attached. -/
def add (node : Node) (children : List Nat) : Arena :=
  children.foldl (fun linked child => linked.attach arena.size child)
    ⟨arena.cells ++ [⟨node, children, none, false⟩]⟩

/-- Adds a node for something that could not be read. -/
def addError (node : Node) : Arena := (arena.add node []).flag arena.size

/-- A cell fits in where it stands: its children come before it and have it as their parent, its
parent lists it, and its node and its flag are made of those of its children. Nothing in it was
checked so far. -/
structure Fits (id : Nat) (cell : Cell) : Prop where
  distinct : cell.children.Nodup
  below : ∀ child ∈ cell.children, child < id ∧ arena.parent? child = some id
  above : ∀ parent ∈ cell.parent, id ∈ arena.childrenOf parent
  nodes : cell.children.map arena.node? = cell.node.children.map some
  clean : cell.node.isMarked = false
  flag : cell.hasErrors = (cell.node.isBroken || cell.children.any arena.isFlagged)

def Sound : Prop := ∀ id cell, arena.cell? id = some cell → arena.Fits id cell

theorem sound_empty : Sound {} := by
  intro id cell found
  cases found

section Adding

theorem cell_update (id other : Nat) (change : Cell → Cell) :
    (arena.update id change).cell? other =
      (arena.cell? other).map fun cell => if other = id then change cell else cell := by
  simp only [update, cell?, List.getElem?_modify, Option.map_eq_map, eq_comm]

theorem cell_attach (parent child id : Nat) :
    (arena.attach parent child).cell? id = (arena.cell? id).map fun cell => { cell with
      parent := if id = child then some parent else cell.parent
      hasErrors := cell.hasErrors || (decide (id = parent) && arena.isFlagged child) } := by
  have flag : (arena.update child fun cell => { cell with parent := some parent }).isFlagged child =
      arena.isFlagged child := by
    simp only [isFlagged, cell_update]
    cases arena.cell? child <;> simp
  unfold attach
  simp only [flag]
  cases arena.isFlagged child with
  | false =>
      rw [if_neg nofun, cell_update]
      refine Option.map_congr fun cell _ => ?_
      by_cases same : id = child <;> simp [same]
  | true =>
      rw [if_pos rfl, Arena.flag, cell_update, cell_update, Option.map_map]
      refine Option.map_congr fun cell _ => ?_
      simp only [Function.comp_apply, Bool.and_true]
      split <;> split <;> simp_all

theorem flags_congr {first second : Arena} {children : List Nat}
    (same : ∀ child ∈ children, first.isFlagged child = second.isFlagged child) :
    children.any first.isFlagged = children.any second.isFlagged := by
  rw [Bool.eq_iff_iff, List.any_eq_true, List.any_eq_true]
  exact exists_congr fun child => and_congr_right fun member => by rw [same child member]

theorem flagged_attach {parent other : Nat} (apart : other ≠ parent) (child : Nat) :
    (arena.attach parent child).isFlagged other = arena.isFlagged other := by
  simp only [isFlagged, cell_attach]
  cases arena.cell? other <;> simp [apart]

theorem cell_attached (parent : Nat) {children : List Nat} (others : parent ∉ children) (id : Nat) :
    (children.foldl (fun linked child => attach linked parent child) arena).cell? id =
      (arena.cell? id).map fun cell => { cell with
        parent := if id ∈ children then some parent else cell.parent
        hasErrors := cell.hasErrors ||
          (decide (id = parent) && children.any arena.isFlagged) } := by
  induction children generalizing arena with
  | nil => simp
  | cons child rest induction =>
      obtain ⟨first, later⟩ := List.ne_and_not_mem_of_not_mem_cons others
      have flags : rest.any (arena.attach parent child).isFlagged = rest.any arena.isFlagged := by
        refine flags_congr fun other member => ?_
        have apart : other ≠ parent := fun same => later (same ▸ member)
        exact arena.flagged_attach apart child
      rw [List.foldl_cons, induction _ later, cell_attach, Option.map_map, flags]
      refine Option.map_congr fun cell _ => ?_
      simp only [Function.comp_apply, List.mem_cons, List.any_cons, Bool.and_or_distrib_left,
        Bool.or_assoc]
      congr 1
      by_cases own : id ∈ rest <;> simp [own]

/-- The arena is the other one and one node behind it, to which the nodes directly inside are
attached. -/
def Grows (grown : Arena) (node : Node) (children : List Nat) : Prop :=
  ∀ id, grown.cell? id =
    if id = arena.size then
      some ⟨node, children, none, node.isBroken || children.any arena.isFlagged⟩
    else (arena.cell? id).map fun cell => { cell with
      parent := if id ∈ children then some arena.size else cell.parent }

theorem lt_size {id : Nat} {cell : Cell} (found : arena.cell? id = some cell) : id < arena.size :=
  (List.getElem?_eq_some_iff.mp found).1

theorem cell_behind (last : Cell) (id : Nat) :
    (⟨arena.cells ++ [last]⟩ : Arena).cell? id =
      if id = arena.size then some last else arena.cell? id := by
  unfold cell? size
  split
  case isTrue same => simp [same]
  case isFalse other =>
    rcases Nat.lt_or_gt_of_ne other with lower | upper
    · exact List.getElem?_append_left lower
    · rw [List.getElem?_eq_none (by simp; omega), List.getElem?_eq_none (by omega)]

theorem grows_add {node : Node} {children : List Nat} (whole : node.isBroken = false)
    (before : ∀ child ∈ children, child < arena.size) :
    arena.Grows (arena.add node children) node children := by
  intro id
  have fresh : arena.size ∉ children := fun member => Nat.lt_irrefl _ (before _ member)
  have flags : children.any
      (⟨arena.cells ++ [⟨node, children, none, false⟩]⟩ : Arena).isFlagged =
        children.any arena.isFlagged := by
    refine flags_congr fun child member => ?_
    rw [isFlagged, cell_behind, if_neg (Nat.ne_of_lt (before child member)), isFlagged]
  rw [add, cell_attached _ _ fresh, cell_behind, flags]
  by_cases last : id = arena.size
  · rw [if_pos last, if_pos last]
    simp [last, fresh, whole]
  · rw [if_neg last, if_neg last]
    simp [last]

theorem grows_add_error {node : Node} (broken : node.isBroken = true) :
    arena.Grows (arena.addError node) node [] := by
  intro id
  rw [addError, flag, cell_update, add, List.foldl_nil, cell_behind]
  split
  case isTrue same => simp [broken]
  case isFalse other => simp

end Adding

/-- The node with the number is there, and no node lists it so far. -/
def Loose (id : Nat) : Prop := ∃ cell, arena.cell? id = some cell ∧ cell.parent = none

variable {arena}

theorem Loose.parent {id : Nat} (loose : arena.Loose id) : arena.parent? id = none := by
  obtain ⟨cell, found, none⟩ := loose
  simp [parent?, found, none]

theorem Loose.lt_size {id : Nat} (loose : arena.Loose id) : id < arena.size := by
  obtain ⟨cell, found, _⟩ := loose
  exact arena.lt_size found

namespace Grows

variable {grown : Arena} {node : Node} {children : List Nat}
  (grows : arena.Grows grown node children)

include grows

theorem cell_last : grown.cell? arena.size =
    some ⟨node, children, none, node.isBroken || children.any arena.isFlagged⟩ := by
  rw [grows, if_pos rfl]

theorem cell_of_ne {id : Nat} (other : id ≠ arena.size) : grown.cell? id =
    (arena.cell? id).map fun cell => { cell with
      parent := if id ∈ children then some arena.size else cell.parent } := by
  rw [grows, if_neg other]

theorem node_of_lt {id : Nat} (before : id < arena.size) : grown.node? id = arena.node? id := by
  rw [node?, grows.cell_of_ne (Nat.ne_of_lt before), node?]
  cases arena.cell? id <;> rfl

theorem flagged_of_lt {id : Nat} (before : id < arena.size) :
    grown.isFlagged id = arena.isFlagged id := by
  rw [isFlagged, grows.cell_of_ne (Nat.ne_of_lt before), isFlagged]
  cases arena.cell? id <;> rfl

theorem children_of_lt {id : Nat} (before : id < arena.size) :
    grown.childrenOf id = arena.childrenOf id := by
  rw [childrenOf, grows.cell_of_ne (Nat.ne_of_lt before), childrenOf]
  cases arena.cell? id <;> rfl

theorem parent_of_lt {id : Nat} (before : id < arena.size) (apart : id ∉ children) :
    grown.parent? id = arena.parent? id := by
  rw [parent?, grows.cell_of_ne (Nat.ne_of_lt before), parent?]
  cases arena.cell? id <;> simp [apart]

theorem sound (before : arena.Sound) (distinct : children.Nodup)
    (loose : ∀ child ∈ children, arena.Loose child)
    (nodes : children.map arena.node? = node.children.map some) (clean : node.isMarked = false) :
    grown.Sound := by
  have early : ∀ child ∈ children, child < arena.size := fun child member =>
    (loose child member).lt_size
  intro id cell found
  by_cases last : id = arena.size
  · subst last
    rw [grows.cell_last] at found
    obtain rfl := Option.some.inj found
    refine ⟨distinct, ?_, by simp, ?_, clean, ?_⟩
    · intro child member
      obtain ⟨old, known, _⟩ := loose child member
      refine ⟨early child member, ?_⟩
      rw [parent?, grows.cell_of_ne (Nat.ne_of_lt (early child member)), known]
      simp [member]
    · rw [← nodes]
      exact List.map_congr_left fun child member => grows.node_of_lt (early child member)
    · dsimp only
      rw [flags_congr fun child member => grows.flagged_of_lt (early child member)]
  · rw [grows.cell_of_ne last] at found
    obtain ⟨old, known, rfl⟩ := Option.map_eq_some_iff.mp found
    have fits := before id old known
    have inside : id < arena.size := arena.lt_size known
    have lower : ∀ child ∈ old.children, child < arena.size := fun child member =>
      Nat.lt_trans (fits.below child member).1 inside
    refine ⟨fits.distinct, ?_, ?_, ?_, fits.clean, ?_⟩
    · intro child member
      obtain ⟨below, parent⟩ := fits.below child member
      refine ⟨below, ?_⟩
      rw [grows.parent_of_lt (lower child member) ?_, parent]
      intro taken
      simp [(loose child taken).parent] at parent
    · intro parent own
      dsimp only at own
      split at own
      · rename_i taken
        obtain rfl := Option.some.inj own
        rw [childrenOf, grows.cell_last]
        exact taken
      · have listed := fits.above parent own
        have outer : parent < arena.size := by
          by_contra beyond
          have none : arena.cell? parent = none := List.getElem?_eq_none (Nat.le_of_not_lt beyond)
          simp [childrenOf, none] at listed
        rwa [grows.children_of_lt outer]
    · rw [← fits.nodes]
      exact List.map_congr_left fun child member => grows.node_of_lt (lower child member)
    · rw [fits.flag]
      rw [flags_congr fun child member => grows.flagged_of_lt (lower child member)]

/-- A node that is loose stays so, unless the new node takes it. -/
theorem loose {id : Nat} (before : arena.Loose id) (apart : id ∉ children) : grown.Loose id := by
  obtain ⟨cell, found, none⟩ := before
  refine ⟨cell, ?_, none⟩
  rw [grows.cell_of_ne (Nat.ne_of_lt (arena.lt_size found)), found]
  simp [apart]

theorem loose_last : grown.Loose arena.size := ⟨_, grows.cell_last, rfl⟩

theorem of_loose {id : Nat} (after : grown.Loose id) :
    id = arena.size ∨ (arena.Loose id ∧ id ∉ children) := by
  obtain ⟨cell, found, none⟩ := after
  by_cases last : id = arena.size
  · exact .inl last
  · rw [grows.cell_of_ne last] at found
    obtain ⟨old, known, rfl⟩ := Option.map_eq_some_iff.mp found
    dsimp only at none
    split at none
    · cases none
    · exact .inr ⟨⟨old, known, none⟩, by assumption⟩

end Grows

end Arena

end Lsl
