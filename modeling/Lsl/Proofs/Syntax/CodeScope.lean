import Lsl.Syntax.Stmt
import Mathlib.Data.List.Nodup
import Mathlib.Data.List.Pairwise

/-!
The code scopes of a statement. Whatever a statement is, it is a head with some scopes of its own,
so what holds of every list of statements is proved from the head, its scopes and the rest.
-/

set_option autoImplicit false

namespace Lsl

/-- Statements that stand together in one scope. -/
structure CodeScope where
  info : ScopeInfo
  body : List Stmt

def Alternatives.parts : Alternatives → List CodeScope
  | .done => []
  | .elseIf _ _ scope body rest => ⟨scope, body⟩ :: rest.parts
  | .otherwise _ scope body => [⟨scope, body⟩]

/-- The scopes a statement holds directly. -/
def Stmt.parts : Stmt → List CodeScope
  | .block scope body => [⟨scope, body⟩]
  | .branch _ _ _ scope body rest => ⟨scope, body⟩ :: rest.parts
  | .whileLoop _ _ scope body => [⟨scope, body⟩]
  | .doLoop _ scope body _ => [⟨scope, body⟩]
  | .forLoop _ _ _ _ scope body => [⟨scope, body⟩]
  | _ => []

/-- Induction over the statements of a scope: the head brings a hypothesis for each of its own
scopes. -/
theorem Stmt.list_induction {motive : List Stmt → Prop} (nil : motive [])
    (cons : ∀ stmt rest, (∀ part ∈ stmt.parts, motive part.body) → motive rest →
      motive (stmt :: rest)) (body : List Stmt) : motive body := by
  -- A statement counts as good if its own scopes are; the lists then follow one by one.
  refine @Stmt.rec_1 (fun stmt => ∀ part ∈ stmt.parts, motive part.body)
    (fun rest => ∀ part ∈ rest.parts, motive part.body) motive
    ?block ?declare ?perform ?giveBack ?jump ?label ?changeState ?branch
    ?whileLoop ?doLoop ?forLoop ?empty ?broken ?done ?elseIf ?otherwise nil ?cons body
  case cons => exact cons
  case branch | elseIf => simp +contextual [Stmt.parts, Alternatives.parts]
  all_goals simp [Stmt.parts, Alternatives.parts]

mutual

/-- The statement and all statements in it, in the order of the text. -/
def Stmt.statements : Stmt → List Stmt
  | .block scope body => .block scope body :: Stmt.listStatements body
  | .branch info first condition scope body rest =>
    .branch info first condition scope body rest ::
      (Stmt.listStatements body ++ rest.statements)
  | .whileLoop info condition scope body =>
    .whileLoop info condition scope body :: Stmt.listStatements body
  | .doLoop info scope body condition =>
    .doLoop info scope body condition :: Stmt.listStatements body
  | .forLoop info init condition afterthought scope body =>
    .forLoop info init condition afterthought scope body :: Stmt.listStatements body
  | stmt => [stmt]

def Stmt.listStatements : List Stmt → List Stmt
  | [] => []
  | stmt :: rest => stmt.statements ++ Stmt.listStatements rest

def Alternatives.statements : Alternatives → List Stmt
  | .done => []
  | .elseIf _ _ _ body rest => Stmt.listStatements body ++ rest.statements
  | .otherwise _ _ body => Stmt.listStatements body

end

theorem Alternatives.statements_eq (rest : Alternatives) :
    rest.statements = rest.parts.flatMap fun part => Stmt.listStatements part.body := by
  match rest with
  | .done => rfl
  | .elseIf _ _ _ body rest =>
      rw [Alternatives.statements, rest.statements_eq]
      rfl
  | .otherwise _ _ body => simp [Alternatives.statements, Alternatives.parts]

theorem Stmt.statements_eq (stmt : Stmt) :
    stmt.statements =
      stmt :: stmt.parts.flatMap fun part => Stmt.listStatements part.body := by
  cases stmt <;> simp [Stmt.statements, Stmt.parts, Alternatives.statements_eq]

theorem Stmt.mem_statements_self (stmt : Stmt) : stmt ∈ stmt.statements := by
  rw [Stmt.statements_eq]
  exact List.mem_cons_self

theorem Stmt.mem_list_statements_cons {found stmt : Stmt} {rest : List Stmt} :
    found ∈ Stmt.listStatements (stmt :: rest) ↔
      found = stmt ∨ (∃ part ∈ stmt.parts, found ∈ Stmt.listStatements part.body) ∨
        found ∈ Stmt.listStatements rest := by
  simp [Stmt.listStatements, Stmt.statements_eq]

theorem Stmt.list_statements_append (front back : List Stmt) :
    Stmt.listStatements (front ++ back) =
      Stmt.listStatements front ++ Stmt.listStatements back := by
  induction front with
  | nil => rfl
  | cons stmt front induction => simp [Stmt.listStatements, induction]

theorem Stmt.sublist_list_statements (body : List Stmt) :
    body.Sublist (Stmt.listStatements body) := by
  induction body with
  | nil => exact .slnil
  | cons stmt rest induction =>
      rw [Stmt.listStatements, Stmt.statements_eq]
      exact .cons_cons _ (induction.trans (List.sublist_append_right _ _))

theorem Stmt.subset_list_statements {stmt : Stmt} {body : List Stmt} (member : stmt ∈ body) :
    stmt ∈ Stmt.listStatements body :=
  (Stmt.sublist_list_statements body).mem member

namespace Stmt

theorem mem_of_rest {found stmt : Stmt} {rest : List Stmt} (inside : found ∈ listStatements rest) :
    found ∈ listStatements (stmt :: rest) :=
  mem_list_statements_cons.mpr (.inr (.inr inside))

theorem mem_of_part {found stmt : Stmt} {rest : List Stmt} {part : CodeScope}
    (member : part ∈ stmt.parts) (inside : found ∈ listStatements part.body) :
    found ∈ listStatements (stmt :: rest) :=
  mem_list_statements_cons.mpr (.inr (.inl ⟨part, member, inside⟩))

theorem mem_statements_of_part {stmt found : Stmt} {body : List Stmt} {part : CodeScope}
    (inside : stmt ∈ listStatements body) (member : part ∈ stmt.parts)
    (foundInside : found ∈ listStatements part.body) : found ∈ listStatements body := by
  induction body using Stmt.list_induction with
  | nil => simp [listStatements] at inside
  | cons head rest inner outer =>
      rcases mem_list_statements_cons.mp inside with rfl | ⟨scope, scopeMember, inside⟩ | inside
      · exact mem_of_part member foundInside
      · exact mem_of_part scopeMember (inner scope scopeMember inside)
      · exact mem_of_rest (outer inside)

theorem mem_statements_of_mem {stmt found : Stmt} {body : List Stmt}
    (inside : stmt ∈ listStatements body) (foundInside : found ∈ stmt.statements) :
    found ∈ listStatements body := by
  rw [statements_eq, List.mem_cons, List.mem_flatMap] at foundInside
  rcases foundInside with rfl | ⟨part, member, foundInside⟩
  · exact inside
  · exact mem_statements_of_part inside member foundInside

/-- The offsets at which the statements of a scope and those in them start. -/
def listStarts (body : List Stmt) : List Nat := (listStatements body).map start

theorem eq_of_start {body : List Stmt} (distinct : (listStarts body).Nodup) {first second : Stmt}
    (firstInside : first ∈ listStatements body) (secondInside : second ∈ listStatements body)
    (same : first.start = second.start) : first = second :=
  List.inj_on_of_nodup_map distinct firstInside secondInside same

end Stmt

mutual

/-- The scopes in a statement, in the order of the text. -/
def Stmt.scopes : Stmt → List CodeScope
  | .block scope body => ⟨scope, body⟩ :: Stmt.listScopes body
  | .branch _ _ _ scope body rest => ⟨scope, body⟩ :: (Stmt.listScopes body ++ rest.scopes)
  | .whileLoop _ _ scope body => ⟨scope, body⟩ :: Stmt.listScopes body
  | .doLoop _ scope body _ => ⟨scope, body⟩ :: Stmt.listScopes body
  | .forLoop _ _ _ _ scope body => ⟨scope, body⟩ :: Stmt.listScopes body
  | _ => []

def Stmt.listScopes : List Stmt → List CodeScope
  | [] => []
  | stmt :: rest => stmt.scopes ++ Stmt.listScopes rest

def Alternatives.scopes : Alternatives → List CodeScope
  | .done => []
  | .elseIf _ _ scope body rest => ⟨scope, body⟩ :: (Stmt.listScopes body ++ rest.scopes)
  | .otherwise _ scope body => ⟨scope, body⟩ :: Stmt.listScopes body

end

/-- A scope and all scopes in it. -/
def CodeScope.scopes (scope : CodeScope) : List CodeScope :=
  scope :: Stmt.listScopes scope.body

theorem Alternatives.scopes_eq (rest : Alternatives) :
    rest.scopes = rest.parts.flatMap CodeScope.scopes := by
  match rest with
  | .done => rfl
  | .elseIf _ _ _ body rest =>
      rw [Alternatives.scopes, rest.scopes_eq]
      rfl
  | .otherwise _ _ body => simp [Alternatives.scopes, Alternatives.parts, CodeScope.scopes]

theorem Stmt.scopes_eq (stmt : Stmt) : stmt.scopes = stmt.parts.flatMap CodeScope.scopes := by
  cases stmt <;>
    simp [Stmt.scopes, Stmt.parts, Alternatives.scopes_eq, CodeScope.scopes]

/-- The numbers of the scopes in statements. -/
def Stmt.listIds (body : List Stmt) : List Nat := (Stmt.listScopes body).map (·.info.id)

theorem Stmt.list_ids_cons (stmt : Stmt) (rest : List Stmt) :
    Stmt.listIds (stmt :: rest) =
      (stmt.parts.flatMap fun part => part.info.id :: Stmt.listIds part.body) ++
        Stmt.listIds rest := by
  simp [Stmt.listIds, Stmt.listScopes, Stmt.scopes_eq, CodeScope.scopes, List.map_flatMap]

theorem Stmt.list_starts_cons (stmt : Stmt) (rest : List Stmt) :
    Stmt.listStarts (stmt :: rest) =
      stmt.start :: (stmt.parts.flatMap fun part => Stmt.listStarts part.body) ++
        Stmt.listStarts rest := by
  simp [Stmt.listStarts, Stmt.listStatements, Stmt.statements_eq, List.map_flatMap]

theorem Stmt.mem_list_starts_cons {start : Nat} {stmt : Stmt} {rest : List Stmt} :
    start ∈ Stmt.listStarts (stmt :: rest) ↔
      start = stmt.start ∨ (∃ part ∈ stmt.parts, start ∈ Stmt.listStarts part.body) ∨
        start ∈ Stmt.listStarts rest := by
  rw [Stmt.list_starts_cons, List.mem_append, List.mem_cons, List.mem_flatMap, or_assoc]

theorem Stmt.mem_list_scopes_cons {found : CodeScope} {stmt : Stmt} {rest : List Stmt} :
    found ∈ Stmt.listScopes (stmt :: rest) ↔
      (∃ part ∈ stmt.parts, found = part ∨ found ∈ Stmt.listScopes part.body) ∨
        found ∈ Stmt.listScopes rest := by
  simp [Stmt.listScopes, Stmt.scopes_eq, CodeScope.scopes]

/-- The statements of a scope follow each other in a body as they do in the scope. -/
theorem Stmt.list_statements_sublist {scope : CodeScope} {body : List Stmt}
    (inside : scope ∈ Stmt.listScopes body) :
    (Stmt.listStatements scope.body).Sublist (Stmt.listStatements body) := by
  induction body using Stmt.list_induction with
  | nil => simp [Stmt.listScopes] at inside
  | cons head rest inner outer =>
      have ofPart : ∀ {part : CodeScope}, part ∈ head.parts →
          (Stmt.listStatements part.body).Sublist (Stmt.listStatements (head :: rest)) := by
        intro part member
        have own := List.sublist_flatten_of_mem
          (List.mem_map_of_mem (f := fun part : CodeScope => Stmt.listStatements part.body) member)
        rw [Stmt.listStatements, Stmt.statements_eq]
        exact (own.cons head).trans (List.sublist_append_left _ _)
      rcases Stmt.mem_list_scopes_cons.mp inside with ⟨part, member, rfl | found⟩ | inside
      · exact ofPart member
      · exact (inner part member found).trans (ofPart member)
      · rw [Stmt.listStatements]
        exact (outer inside).trans (List.sublist_append_right _ _)

theorem Stmt.mem_statements_of_scope {scope : CodeScope} {body : List Stmt} {stmt : Stmt}
    (inside : scope ∈ Stmt.listScopes body) (member : stmt ∈ Stmt.listStatements scope.body) :
    stmt ∈ Stmt.listStatements body :=
  (Stmt.list_statements_sublist inside).mem member

theorem Stmt.holder_of_scope {scope : CodeScope} {body : List Stmt}
    (inside : scope ∈ Stmt.listScopes body) :
    ∃ found ∈ Stmt.listStatements body, scope ∈ found.parts := by
  induction body using Stmt.list_induction with
  | nil => simp [Stmt.listScopes] at inside
  | cons stmt rest inner outer =>
      rcases Stmt.mem_list_scopes_cons.mp inside with ⟨part, member, rfl | inside⟩ | inside
      · exact ⟨stmt, Stmt.mem_list_statements_cons.mpr (.inl rfl), member⟩
      · obtain ⟨found, among, own⟩ := inner part member inside
        exact ⟨found, Stmt.mem_of_part member among, own⟩
      · obtain ⟨found, among, own⟩ := outer inside
        exact ⟨found, Stmt.mem_of_rest among, own⟩

theorem Stmt.starts_of_single {stmt : Stmt} {rest : List Stmt} {start : Nat}
    (inside : start ∈ Stmt.listStarts [stmt]) : start ∈ Stmt.listStarts (stmt :: rest) := by
  rw [Stmt.mem_list_starts_cons] at inside ⊢
  rcases inside with same | part | inside
  · exact .inl same
  · exact .inr (.inl part)
  · simp [Stmt.listStarts, Stmt.listStatements] at inside

section Order

variable {head : Stmt} {others : List Stmt}
  (order : (Stmt.listStarts (head :: others)).Pairwise (· < ·))

include order

theorem Stmt.order_rest : (Stmt.listStarts others).Pairwise (· < ·) := by
  rw [Stmt.list_starts_cons] at order
  exact (List.pairwise_append.mp order).2.1

/-- A statement and all that stands in it start in front of what is behind it. -/
theorem Stmt.lt_of_order {start later : Nat} (here : start ∈ Stmt.listStarts [head])
    (behind : later ∈ Stmt.listStarts others) : start < later := by
  rw [Stmt.list_starts_cons] at here order
  apply (List.pairwise_append.mp order).2.2 start _ later behind
  simpa [Stmt.listStarts, Stmt.listStatements] using here

end Order

theorem Stmt.order_scope {body : List Stmt} (order : (Stmt.listStarts body).Pairwise (· < ·))
    {scope : CodeScope} (inside : scope ∈ Stmt.listScopes body) :
    (Stmt.listStarts scope.body).Pairwise (· < ·) :=
  order.sublist ((Stmt.list_statements_sublist inside).map _)

/-- The statements behind a statement in its scope, wherever in a body that scope is. -/
inductive Behind (stmt : Stmt) (back : List Stmt) : List Stmt → Prop where
  | here : Behind stmt back (stmt :: back)
  | rest {head : Stmt} {rest : List Stmt} (later : Behind stmt back rest) :
      Behind stmt back (head :: rest)
  | part {head : Stmt} {rest : List Stmt} {part : CodeScope} (member : part ∈ head.parts)
      (inner : Behind stmt back part.body) : Behind stmt back (head :: rest)

namespace Behind

variable {stmt : Stmt} {back body : List Stmt}

theorem of_append (front : List Stmt) : Behind stmt back (front ++ stmt :: back) := by
  induction front with
  | nil => exact .here
  | cons head front induction => exact .rest induction

theorem of_scope {scope : CodeScope} (inside : scope ∈ Stmt.listScopes body)
    (behind : Behind stmt back scope.body) : Behind stmt back body := by
  induction body using Stmt.list_induction with
  | nil => simp [Stmt.listScopes] at inside
  | cons head rest inner outer =>
      rcases Stmt.mem_list_scopes_cons.mp inside with ⟨part, member, rfl | inside⟩ | inside
      · exact .part member behind
      · exact .part member (inner part member inside)
      · exact .rest (outer inside)

theorem mem (behind : Behind stmt back body) : stmt ∈ Stmt.listStatements body := by
  induction behind with
  | here => exact Stmt.mem_list_statements_cons.mpr (.inl rfl)
  | rest later induction => exact Stmt.mem_of_rest induction
  | part member inner induction => exact Stmt.mem_of_part member induction

theorem subset (behind : Behind stmt back body) {found : Stmt}
    (inside : found ∈ Stmt.listStatements back) : found ∈ Stmt.listStatements body := by
  induction behind with
  | here => exact Stmt.mem_of_rest inside
  | rest later induction => exact Stmt.mem_of_rest induction
  | part member inner induction => exact Stmt.mem_of_part member induction

end Behind

/-- Statements in a row start at different places, and so do all that stand in them. -/
def Stmt.Distinct (body : List Stmt) : Prop := (Stmt.listStarts body).Nodup

namespace Stmt.Distinct

variable {head : Stmt} {others : List Stmt} (distinct : Distinct (head :: others))

include distinct

theorem rest : Distinct others := by
  rw [Distinct, list_starts_cons] at distinct
  exact (List.nodup_append.mp distinct).2.1

theorem parts : (head.parts.flatMap fun part => listStarts part.body).Nodup := by
  rw [Distinct, list_starts_cons] at distinct
  exact (List.nodup_cons.mp (List.nodup_append.mp distinct).1).2

theorem part {part : CodeScope} (member : part ∈ head.parts) : Distinct part.body :=
  (List.nodup_flatMap.mp distinct.parts).1 part member

theorem head_not_part {part : CodeScope} (member : part ∈ head.parts) :
    head.start ∉ listStarts part.body := by
  rw [Distinct, list_starts_cons] at distinct
  have own := (List.nodup_cons.mp (List.nodup_append.mp distinct).1).1
  exact fun inside => own (List.mem_flatMap.mpr ⟨part, member, inside⟩)

theorem head_not_rest : head.start ∉ listStarts others := by
  rw [Distinct, list_starts_cons] at distinct
  intro inside
  exact (List.nodup_append.mp distinct).2.2 _ List.mem_cons_self _ inside rfl

theorem part_not_rest {part : CodeScope} (member : part ∈ head.parts) {start : Nat}
    (inside : start ∈ listStarts part.body) : start ∉ listStarts others := by
  rw [Distinct, list_starts_cons] at distinct
  intro other
  refine (List.nodup_append.mp distinct).2.2 start ?_ start other rfl
  exact List.mem_cons_of_mem _ (List.mem_flatMap.mpr ⟨part, member, inside⟩)

/-- A statement and all that stands in it start elsewhere than what is behind it. -/
theorem single_not_rest {start : Nat} (inside : start ∈ listStarts [head]) :
    start ∉ listStarts others := by
  rcases mem_list_starts_cons.mp inside with rfl | ⟨part, member, inside⟩ | inside
  · exact distinct.head_not_rest
  · exact distinct.part_not_rest member inside
  · simp [listStarts, listStatements] at inside

theorem part_unique {first second : CodeScope} (firstMember : first ∈ head.parts)
    (secondMember : second ∈ head.parts) {start : Nat} (firstInside : start ∈ listStarts first.body)
    (secondInside : start ∈ listStarts second.body) : first = second := by
  by_contra different
  have apart := (List.nodup_flatMap.mp distinct.parts).2
  have : Std.Symm (Function.onFun List.Disjoint fun part : CodeScope => listStarts part.body) :=
    ⟨fun _ _ disjoint _ right left => disjoint left right⟩
  exact apart.forall firstMember secondMember different firstInside secondInside

end Stmt.Distinct

end Lsl
