import Lsl.Proofs.Arena.Declarations
import Lsl.Proofs.Arena.Walking
import Lsl.Proofs.Checking.Preservation
import Lsl.Proofs.Checking.Spelling
import Lsl.Proofs.Parsing.Script
import Lsl.Proofs.Syntax.Scopes

/-!
The tree of a script in its arena. Whatever the tokens are, the nodes below the root are those of the
script that was read, each of them has one place, and what is said of them from above and from below
agrees. Nodes besides them are left over only where an error was reported.
-/

set_option autoImplicit false

namespace Lsl

def Node.scopeNumber? : Node → Option Nat
  | scope info _ => some info.id
  | _ => none

def outlineNumbers (outline : List Occurrence) : List Nat :=
  outline.filterMap fun occurrence => occurrence.node.scopeNumber?

theorem outline_numbers_eq (outline : List Occurrence) :
    outlineNumbers outline = (outlineScopes outline).map (·.info.id) := by
  rw [outlineScopes, List.map_filterMap, outlineNumbers]
  refine List.filterMap_congr fun occurrence _ => ?_
  cases occurrence.node <;> rfl

theorem Script.outline_numbers (script : Script) :
    outlineNumbers script.outline = script.scopeIds := by
  rw [outline_numbers_eq, script.outline_scopes, scopeIds, List.map_flatMap]
  rfl

theorem filter_map_inj {α β : Type} {list : List α} {find : α → Option β}
    (distinct : (list.filterMap find).Nodup) {first second : α} {value : β}
    (member : first ∈ list) (other : second ∈ list) (here : find first = some value)
    (there : find second = some value) : first = second := by
  have symmetric : Std.Symm fun one two =>
      ∀ left, find one = some left → ∀ right, find two = some right → left ≠ right :=
    ⟨fun _ _ clash left found right known => (clash right known left found).symm⟩
  by_contra different
  exact (List.pairwise_filterMap.mp distinct).forall member other different value here value there
    rfl

namespace Arena

/-- What is below a root in an arena is the tree of a script. -/
structure Holds (arena : Arena) (root : Nat) (script : Script) : Prop where
  own : arena.node? root = some (.script script)
  top : arena.parent? root = none
  ordered : ∀ id, ∀ child ∈ arena.childrenOf id, child < id
  linked : ∀ id, arena.Reaches root id → id ≠ root →
    ∃ parent, arena.parent? id = some parent ∧ arena.Reaches root parent ∧
      (arena.childrenOf parent).count id = 1 ∧
      ∀ other, id ∈ arena.childrenOf other → other = parent
  visited : (arena.descendants root).Nodup ∧
    ∀ id, id ∈ arena.descendants root ↔ arena.Reaches root id
  inOrder : ∀ id, arena.Reaches root id → arena.descendants id =
    id :: (arena.childrenOf id).flatMap arena.descendants
  complete : ∀ steps, arena.size ≤ steps → arena.walk steps [root] = arena.descendants root
  outline : (arena.descendants root).map arena.node? =
    script.outline.map fun occurrence => some occurrence.node
  flags : ∀ id, arena.Reaches root id →
    (arena.isFlagged id = true ↔ ∃ below context span, arena.Reaches id below ∧
      arena.node? below = some (.broken context span)) ∧
    ∃ node, arena.node? id = some node ∧ arena.isFlagged id = node.hasErrors
  scopes : ∀ first info body, arena.Reaches root first →
    arena.node? first = some (.scope info body) → 1024 ≤ info.id ∧
      ∀ second other inner, arena.Reaches root second →
        arena.node? second = some (.scope other inner) → other.id = info.id → second = first

namespace Sound

variable {arena : Arena} (sound : arena.Sound)

include sound

theorem node_of_reaches {top id : Nat} {script : Script}
    (own : arena.node? top = some (.script script)) (reached : arena.Reaches top id) :
    ∃ node, arena.node? id = some node ∧ (node.isInner = true ∨ node.isScript = true) := by
  induction reached with
  | self => exact ⟨_, own, .inr rfl⟩
  | @child outer id _ listed induction =>
      obtain ⟨node, known, _⟩ := induction
      have nodes := sound.nodes_eq known
      have among : arena.node? id ∈ node.children.map some := by
        rw [← nodes]
        exact List.mem_map_of_mem listed
      obtain ⟨child, inside, same⟩ := List.mem_map.mp among
      exact ⟨child, same.symm, .inl (node.children_inner child inside)⟩

theorem numbers {top : Nat} {script : Script} (own : arena.node? top = some (.script script)) :
    (arena.order top).filterMap (fun id => (arena.node? id).bind Node.scopeNumber?) =
      script.scopeIds := by
  have nodes := congrArg (List.filterMap fun node => node.bind Node.scopeNumber?)
    (sound.order_nodes own (fun _ => rfl : (Node.script script).isScript = true → [] = []))
  rw [List.filterMap_map, List.filterMap_map] at nodes
  exact nodes.trans script.outline_numbers

theorem holds {root : Nat} {script : Script} {high : Nat}
    (own : arena.node? root = some (.script script)) (loose : arena.Loose root)
    (numbered : Spread 1024 high script.scopeIds) : arena.Holds root script := by
  have bounded : ∀ id, arena.Reaches root id → id < arena.size := fun id reached =>
    Nat.lt_of_le_of_lt (sound.le_of_reaches reached) loose.lt_size
  have order : ∀ id, arena.Reaches root id → arena.descendants id = arena.order id :=
    fun id reached => sound.descendants_eq_order (bounded id reached)
  have whole : arena.descendants root = arena.order root := order root .self
  constructor
  case own => exact own
  case top => exact loose.parent
  case ordered => exact fun id child listed => sound.child_lt listed
  case linked =>
    intro id reached other
    obtain ⟨parent, link, above, _⟩ := sound.parent_of_reaches reached other
    refine ⟨parent, link, above, ?_, ?_⟩
    · exact List.count_eq_one_of_mem (sound.children_distinct parent) (sound.child_of_parent link)
    · intro another listed
      exact Option.some.inj ((sound.parent_of_child listed).symm.trans link)
  case visited =>
    rw [whole]
    exact ⟨sound.order_nodup root, fun id => sound.mem_order⟩
  case inOrder =>
    intro id reached
    rw [order id reached, sound.order_eq]
    refine congrArg (List.cons id) (List.flatMap_congr fun child listed => ?_)
    exact (order child (reached.child listed)).symm
  case complete =>
    intro steps enough
    rw [whole]
    exact sound.walk_single (Nat.le_trans (sound.order_length loose.lt_size) enough)
  case outline =>
    rw [whole]
    exact sound.order_nodes own fun _ => rfl
  case flags =>
    intro id reached
    obtain ⟨node, known, kind⟩ := sound.node_of_reaches own reached
    refine ⟨?_, node, known, sound.flagged_eq known kind⟩
    rw [sound.flagged_iff]
    constructor
    · rintro ⟨below, node, inside, here, broken⟩
      cases node with
      | broken context span => exact ⟨below, context, span, inside, here⟩
      | _ => cases broken
    · rintro ⟨below, context, span, inside, here⟩
      exact ⟨below, _, inside, here, rfl⟩
  case scopes =>
    intro first info body reached known
    have numbers := sound.numbers own
    have mine : (arena.node? first).bind Node.scopeNumber? = some info.id := by
      rw [known]
      rfl
    have among : info.id ∈ script.scopeIds := by
      rw [← numbers]
      exact List.mem_filterMap.mpr ⟨first, sound.mem_order.mpr reached, mine⟩
    refine ⟨(numbered.within _ among).1, ?_⟩
    intro second other inner further shown same
    have theirs : (arena.node? second).bind Node.scopeNumber? = some info.id := by
      rw [shown, ← same]
      rfl
    have distinct := numbers ▸ numbered.distinct
    exact filter_map_inj distinct (sound.mem_order.mpr further) (sound.mem_order.mpr reached)
      theirs mine

end Sound

end Arena

/-- Scopes keep their numbers in 32 bits, if these are enough to count the source behind the numbers
that are not given to scopes. -/
theorem scope_numbers_stored {source : String} (small : source.utf8ByteSize + 1025 < UInt32.size) :
    (∀ id ∈ (parse (tokenize source)).1.scopeIds, (UInt32.ofNat id).toNat = id) ∧
      ((parse (tokenize source)).1.scopeIds.map UInt32.ofNat).Nodup := by
  have numbered := parse_numbered (tokenize source)
  have fewer := tokenize_length_le source
  have kept : ∀ id ∈ (parse (tokenize source)).1.scopeIds, (UInt32.ofNat id).toNat = id := by
    intro id member
    have below := (numbered.within id member).2
    exact UInt32.toNat_ofNat_of_lt' (by omega)
  refine ⟨kept, numbered.distinct.map_on fun first one second other same => ?_⟩
  rw [← kept first one, same, kept second other]

/-- Whatever the tokens are, the arena they are read into holds the tree of the script that is read
from them. If nothing is reported there are no other nodes in it. Validation leaves the links between
nodes as they are. -/
theorem arena_holds_tree (tokens : List Token) :
    ∃ root, (plant tokens).root = some root ∧ (plant tokens).errors = (parse tokens).2 ∧
      (plant tokens).arena.Holds root (parse tokens).1 ∧
      ((parse tokens).2 = [] →
        ∀ id < (plant tokens).arena.size, (plant tokens).arena.Reaches root id) ∧
      ∀ library, (plant tokens).arena.Lays root (.script (check library (parse tokens).1).value) ∧
        (check library (parse tokens).1).value.outline.map Occurrence.plain =
          (parse tokens).1.outline.map Occurrence.plain := by
  obtain ⟨root, site, planted, node, errors, keeps⟩ := Planter.script_planted tokens
  obtain ⟨loose, known⟩ := keeps.shown root (List.mem_singleton_self root)
  have same : plant tokens = ⟨site.arena, some root.id, site.cursor.errors⟩ := by
    rw [plant, planted]
    rfl
  rw [node] at known
  simp only [same]
  refine ⟨root.id, rfl, errors, keeps.sound.holds known loose (parse_numbered tokens), ?_, ?_⟩
  · intro silent id inside
    refine keeps.sound.reaches_all ?_ inside
    intro other single
    exact List.mem_singleton.mp (keeps.whole (errors.trans silent) other single)
  · intro library
    have plain := plain_check library (parse tokens).1
    refine ⟨keeps.sound.lays known ?_, ?_⟩
    · exact congrArg Node.script plain
    · rw [← Script.outline_plain, ← Script.outline_plain, plain]

/-- The number in the body has a node, which stays out of the tree: what it is an operand of could
not be read. -/
example :
    let planted := plant (tokenize "default { touch() { 1 + ; } }")
    planted.arena.size = 7 ∧ planted.root = some 6 ∧
      planted.arena.descendants 6 = [6, 5, 4, 0, 3, 2] := by
  intro planted
  simp only [planted]
  rw [tokenize_spelled (rfl : _ = String.ofList _)]
  decide +kernel

end Lsl
