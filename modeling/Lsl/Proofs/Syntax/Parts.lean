import Lsl.Syntax.Expr

/-!
The expressions that an expression is made of, and induction over them. What is said of each node
of an expression is proved from the node itself and its parts.
-/

set_option autoImplicit false

namespace Lsl

namespace Expr

/-- The expressions directly in an expression, in the order of the text. -/
def parts : Expr → List Expr
  | integer _ _ => []
  | hex _ _ => []
  | float _ _ => []
  | string _ _ => []
  | vector _ x y z => [x, y, z]
  | rotation _ x y z s => [x, y, z, s]
  | list _ _ elements => elements
  | reference _ _ _ => []
  | call _ _ _ arguments _ => arguments
  | binary _ _ left right => [left, right]
  | prefixed _ _ operand => [operand]
  | postfixed _ _ operand => [operand]
  | cast _ _ operand => [operand]
  | grouped _ inner => [inner]
  | component _ _ target => [target]

theorem parts_induction {motive : Expr → Prop}
    (step : ∀ expr : Expr, (∀ part ∈ expr.parts, motive part) → motive expr) (expr : Expr) :
    motive expr := by
  refine @Expr.rec motive (fun exprs => ∀ part ∈ exprs, motive part)
    ?integer ?hex ?float ?string ?vector ?rotation ?list ?reference ?call ?binary ?prefixed
    ?postfixed ?cast ?grouped ?component ?nil ?cons expr
  case nil => simp
  case cons =>
    intro head rest own others
    simpa using ⟨own, others⟩
  case integer | hex | float | string => exact fun info raw => step _ (by simp [parts])
  case reference => exact fun info name binding => step _ (by simp [parts])
  case vector =>
    intro info x y z first second third
    exact step _ (by simpa [parts] using ⟨first, second, third⟩)
  case rotation =>
    intro info x y z s first second third fourth
    exact step _ (by simpa [parts] using ⟨first, second, third, fourth⟩)
  case list => exact fun info inner elements parts => step _ parts
  case call => exact fun info name inner arguments target parts => step _ parts
  case binary =>
    intro info operator left right first second
    exact step _ (by simpa [parts] using ⟨first, second⟩)
  case prefixed | postfixed | cast | component =>
    exact fun info _ operand inner => step _ (by simpa [parts] using inner)
  case grouped => exact fun info operand inner => step _ (by simpa [parts] using inner)

mutual

/-- The expression and all expressions in it, in the order of the text. -/
def nodes : Expr → List Expr
  | integer info raw => [integer info raw]
  | hex info raw => [hex info raw]
  | float info raw => [float info raw]
  | string info raw => [string info raw]
  | vector info x y z => vector info x y z :: (x.nodes ++ y.nodes ++ z.nodes)
  | rotation info x y z s => rotation info x y z s :: (x.nodes ++ y.nodes ++ z.nodes ++ s.nodes)
  | list info inner elements => list info inner elements :: listNodes elements
  | reference info name binding => [reference info name binding]
  | call info name inner arguments target =>
    call info name inner arguments target :: listNodes arguments
  | binary info operator left right =>
    binary info operator left right :: (left.nodes ++ right.nodes)
  | prefixed info operator operand => prefixed info operator operand :: operand.nodes
  | postfixed info operator operand => postfixed info operator operand :: operand.nodes
  | cast info target operand => cast info target operand :: operand.nodes
  | grouped info inner => grouped info inner :: inner.nodes
  | component info part target => component info part target :: target.nodes

def listNodes : List Expr → List Expr
  | [] => []
  | expr :: rest => expr.nodes ++ listNodes rest

end

theorem list_nodes_eq (exprs : List Expr) : listNodes exprs = exprs.flatMap nodes := by
  induction exprs with
  | nil => rfl
  | cons expr rest induction => rw [listNodes, induction, List.flatMap_cons]

theorem nodes_eq (expr : Expr) : expr.nodes = expr :: expr.parts.flatMap nodes := by
  cases expr <;> simp [nodes, parts, list_nodes_eq]

theorem mem_nodes_self (expr : Expr) : expr ∈ expr.nodes := by
  rw [nodes_eq]
  exact List.mem_cons_self

theorem mem_nodes {node expr : Expr} :
    node ∈ expr.nodes ↔ node = expr ∨ ∃ part ∈ expr.parts, node ∈ part.nodes := by
  rw [nodes_eq, List.mem_cons, List.mem_flatMap]

theorem mem_nodes_of_part {node part expr : Expr} (member : part ∈ expr.parts)
    (inside : node ∈ part.nodes) : node ∈ expr.nodes :=
  mem_nodes.mpr (.inr ⟨part, member, inside⟩)

/-- What a node is made of are nodes as well. -/
theorem mem_nodes_of_node {node part expr : Expr} (inside : node ∈ expr.nodes)
    (member : part ∈ node.parts) : part ∈ expr.nodes := by
  induction expr using parts_induction with
  | step expr induction =>
      rcases mem_nodes.mp inside with rfl | ⟨outer, among, inside⟩
      · exact mem_nodes_of_part member part.mem_nodes_self
      · exact mem_nodes_of_part among (induction outer among inside)

theorem mem_nodes_trans {found node expr : Expr} (inside : node ∈ expr.nodes)
    (member : found ∈ node.nodes) : found ∈ expr.nodes := by
  induction expr using parts_induction with
  | step expr induction =>
      rcases mem_nodes.mp inside with rfl | ⟨part, among, inside⟩
      · exact member
      · exact mem_nodes_of_part among (induction part among inside)

theorem list_has_errors_iff {exprs : List Expr} :
    listHasErrors exprs = false ↔ ∀ expr ∈ exprs, expr.hasErrors = false := by
  induction exprs with
  | nil => simp [listHasErrors]
  | cons expr rest induction => simp [listHasErrors, induction]

/-- An expression is free of errors if neither it nor one of its parts is at fault. -/
theorem has_errors_iff {expr : Expr} :
    expr.hasErrors = false ↔
      expr.info.faulty = false ∧ ∀ part ∈ expr.parts, part.hasErrors = false := by
  cases expr <;> simp [hasErrors, info, parts, list_has_errors_iff, and_assoc]

theorem clean_of_nodes {expr : Expr} (clean : ∀ node ∈ expr.nodes, node.info.faulty = false) :
    expr.hasErrors = false := by
  induction expr using parts_induction with
  | step expr induction =>
      refine has_errors_iff.mpr ⟨clean expr expr.mem_nodes_self, ?_⟩
      intro part member
      exact induction part member fun node inside => clean node (mem_nodes_of_part member inside)

end Expr

end Lsl
