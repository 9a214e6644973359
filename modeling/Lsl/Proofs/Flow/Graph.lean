import Lsl.Proofs.Syntax.CodeScope
import Mathlib.Logic.Relation

/-!
The control flow of a body as a graph. Its points are the starts of the statements and the end of
the body. Conditions are not looked at: every branch may be taken, and every loop may run any number
of times, also none.
-/

set_option autoImplicit false

namespace Lsl

inductive Point where
  | before (start : Nat)
  | finish
deriving DecidableEq, Inhabited, Repr

namespace Stmt

/-- The first point of statements in a row, with what stands behind them. -/
def entry (next : Point) : List Stmt → Point
  | [] => next
  | stmt :: _ => .before stmt.start

/-- Where control goes at the end of a statement's own scopes: a loop comes back to its head. -/
def after (next : Point) : Stmt → Point
  | whileLoop info _ _ _ => .before info.span.start.offset
  | doLoop info _ _ _ => .before info.span.start.offset
  | forLoop info _ _ _ _ _ => .before info.span.start.offset
  | _ => next

end Stmt

/-- The points an `if` leads to besides its first branch. With `past` control may also pass an
`if` that ends in an `else`. -/
def Alternatives.ways (past : Bool) (next : Point) : Alternatives → List Point
  | .done => [next]
  | .elseIf _ _ _ body rest => Stmt.entry next body :: rest.ways past next
  | .otherwise _ _ body => Stmt.entry next body :: if past then [next] else []

/-- The points control may go to from a statement, where `next` stands behind it. -/
def Stmt.ways (past : Bool) (next : Point) : Stmt → List Point
  | .giveBack _ _ => []
  | .changeState _ _ _ => []
  | .jump _ _ none => []
  | .jump _ _ (some target) => [.before target.label]
  | .block _ body => [Stmt.entry next body]
  | .branch _ _ _ _ body rest => Stmt.entry next body :: rest.ways past next
  | .whileLoop info _ _ body => [Stmt.entry (.before info.span.start.offset) body, next]
  | .doLoop info _ body _ => [Stmt.entry (.before info.span.start.offset) body, next]
  | .forLoop info _ _ _ _ body => [Stmt.entry (.before info.span.start.offset) body, next]
  | _ => [next]

mutual

/-- The statement and all statements in it, each with the point behind it. -/
def Stmt.placed (next : Point) : Stmt → List (Stmt × Point)
  | .block scope body => (.block scope body, next) :: Stmt.listPlaced next body
  | .branch info first condition scope body rest =>
    (.branch info first condition scope body rest, next) ::
      (Stmt.listPlaced next body ++ rest.placed next)
  | .whileLoop info condition scope body =>
    (.whileLoop info condition scope body, next) ::
      Stmt.listPlaced (.before info.span.start.offset) body
  | .doLoop info scope body condition =>
    (.doLoop info scope body condition, next) ::
      Stmt.listPlaced (.before info.span.start.offset) body
  | .forLoop info init condition afterthought scope body =>
    (.forLoop info init condition afterthought scope body, next) ::
      Stmt.listPlaced (.before info.span.start.offset) body
  | stmt => [(stmt, next)]

def Stmt.listPlaced (next : Point) : List Stmt → List (Stmt × Point)
  | [] => []
  | stmt :: rest => stmt.placed (Stmt.entry next rest) ++ Stmt.listPlaced next rest

def Alternatives.placed (next : Point) : Alternatives → List (Stmt × Point)
  | .done => []
  | .elseIf _ _ _ body rest => Stmt.listPlaced next body ++ rest.placed next
  | .otherwise _ _ body => Stmt.listPlaced next body

end

namespace Stmt

def listEdges (past : Bool) (body : List Stmt) : List (Point × Point) :=
  (listPlaced .finish body).flatMap fun (stmt, next) =>
    (stmt.ways past next).map fun target => (.before stmt.start, target)

def Steps (past : Bool) (body : List Stmt) (source target : Point) : Prop :=
  (source, target) ∈ listEdges past body

instance (past : Bool) (body : List Stmt) (source target : Point) :
    Decidable (Steps past body source target) :=
  inferInstanceAs (Decidable ((source, target) ∈ listEdges past body))

/-- Some path leads from the first statement of the body to the point. -/
def Reaches (past : Bool) (body : List Stmt) (point : Point) : Prop :=
  Relation.ReflTransGen (Steps past body) (entry .finish body) point

/-- The points that control passes on its way from one to another, both of them included. -/
inductive Path (past : Bool) (body : List Stmt) : Point → Point → List Point → Prop where
  | stay (point : Point) : Path past body point point [point]
  | step {source middle target : Point} {points : List Point}
      (first : Steps past body source middle) (rest : Path past body middle target points) :
      Path past body source target (source :: points)

def target? : Stmt → Option JumpTarget
  | jump _ _ target => target
  | _ => none

end Stmt

theorem Alternatives.placed_eq (next : Point) (rest : Alternatives) :
    rest.placed next = rest.parts.flatMap fun part => Stmt.listPlaced next part.body := by
  match rest with
  | .done => rfl
  | .elseIf _ _ _ body rest =>
      rw [Alternatives.placed, rest.placed_eq]
      rfl
  | .otherwise _ _ body => simp [Alternatives.placed, Alternatives.parts]

namespace Stmt

theorem placed_eq (next : Point) (stmt : Stmt) :
    stmt.placed next =
      (stmt, next) :: stmt.parts.flatMap fun part => listPlaced (stmt.after next) part.body := by
  cases stmt <;> simp [placed, parts, after, Alternatives.placed_eq]

theorem mem_list_placed_cons {found stmt : Stmt} {behind next : Point} {rest : List Stmt} :
    (found, behind) ∈ listPlaced next (stmt :: rest) ↔
      (found = stmt ∧ behind = entry next rest) ∨
        (∃ part ∈ stmt.parts,
          (found, behind) ∈ listPlaced (stmt.after (entry next rest)) part.body) ∨
        (found, behind) ∈ listPlaced next rest := by
  simp [listPlaced, placed_eq]

theorem list_placed_statements (next : Point) (body : List Stmt) :
    (listPlaced next body).map Prod.fst = listStatements body := by
  induction body using Stmt.list_induction generalizing next with
  | nil => rfl
  | cons stmt rest inner outer =>
      have parts : (stmt.parts.flatMap fun part =>
          (listPlaced (stmt.after (entry next rest)) part.body).map Prod.fst) =
            stmt.parts.flatMap fun part => listStatements part.body :=
        List.flatMap_congr fun part member => inner part member _
      simp [listPlaced, placed_eq, listStatements, statements_eq, List.map_flatMap, parts, outer]

theorem mem_statements_of_placed {stmt : Stmt} {behind next : Point} {body : List Stmt}
    (placed : (stmt, behind) ∈ listPlaced next body) : stmt ∈ listStatements body := by
  rw [← list_placed_statements next body]
  exact List.mem_map_of_mem placed

theorem steps_iff {past : Bool} {body : List Stmt} {source target : Point} :
    Steps past body source target ↔
      ∃ stmt next, (stmt, next) ∈ listPlaced .finish body ∧ source = .before stmt.start ∧
        target ∈ stmt.ways past next := by
  simp only [Steps, listEdges, List.mem_flatMap, List.mem_map, Prod.mk.injEq, Prod.exists]
  constructor
  · rintro ⟨stmt, next, placed, way, member, rfl, rfl⟩
    exact ⟨stmt, next, placed, rfl, member⟩
  · rintro ⟨stmt, next, placed, rfl, member⟩
    exact ⟨stmt, next, placed, target, member, rfl, rfl⟩

end Stmt

theorem Alternatives.ways_cases {past : Bool} {next target : Point} {rest : Alternatives}
    (way : target ∈ rest.ways past next) :
    target = next ∨ ∃ part ∈ rest.parts, target = Stmt.entry next part.body := by
  match rest with
  | .done => exact .inl (by simpa [Alternatives.ways] using way)
  | .elseIf _ _ _ body rest =>
      rcases List.mem_cons.mp way with rfl | way
      · exact .inr ⟨_, List.mem_cons_self, rfl⟩
      · rcases rest.ways_cases way with same | ⟨part, member, same⟩
        · exact .inl same
        · exact .inr ⟨part, List.mem_cons_of_mem _ member, same⟩
  | .otherwise _ scope body =>
      rcases List.mem_cons.mp way with rfl | way
      · exact .inr ⟨_, List.mem_cons_self, rfl⟩
      · cases past <;> simp at way
        exact .inl way

namespace Stmt

/-- All that an edge can do: follow a jump, go on behind the statement, or enter one of its
scopes. -/
theorem ways_cases {past : Bool} {next target : Point} {stmt : Stmt}
    (way : target ∈ stmt.ways past next) :
    (∃ label, stmt.target? = some label ∧ target = .before label.label) ∨
      (stmt.isExit = false ∧
        (target = next ∨ ∃ part ∈ stmt.parts, target = entry (stmt.after next) part.body)) := by
  cases stmt with
  | jump info label found =>
      cases found with
      | none => simp [ways] at way
      | some found => exact .inl ⟨found, rfl, by simpa [ways] using way⟩
  | branch info first condition scope body rest =>
      rcases List.mem_cons.mp way with rfl | way
      · exact .inr ⟨rfl, .inr ⟨_, List.mem_cons_self, rfl⟩⟩
      · rcases rest.ways_cases way with same | ⟨part, member, same⟩
        · exact .inr ⟨rfl, .inl same⟩
        · exact .inr ⟨rfl, .inr ⟨part, List.mem_cons_of_mem _ member, same⟩⟩
  | _ => simp_all [ways, parts, after, isExit, or_comm]

/-- A loop comes back to its head, all else goes on to what is behind it. -/
theorem after_cases (next : Point) (stmt : Stmt) :
    stmt.after next = next ∨ stmt.after next = .before stmt.start := by
  cases stmt <;> simp [after, start, span]

theorem parts_of_exit {stmt : Stmt} (exit : stmt.isExit = true) : stmt.parts = [] := by
  cases stmt <;> simp_all [isExit, parts]

theorem entry_cases (next : Point) (body : List Stmt) :
    entry next body = next ∨ ∃ start ∈ listStarts body, entry next body = .before start := by
  cases body with
  | nil => exact .inl rfl
  | cons stmt rest =>
      exact .inr ⟨stmt.start, mem_list_starts_cons.mpr (.inl rfl), rfl⟩

/-- Without a jump control does not leave statements in a row except to what is behind them. -/
theorem flow_stays {past : Bool} {body : List Stmt} {next behind point : Point} {stmt : Stmt}
    (placed : (stmt, behind) ∈ listPlaced next body) (falls : stmt.target? = none)
    (way : point ∈ stmt.ways past behind) :
    point = next ∨ ∃ start ∈ listStarts body, point = .before start := by
  induction body using Stmt.list_induction generalizing next with
  | nil => simp [listPlaced] at placed
  | cons head rest inner outer =>
      have behindHead : entry next rest = next ∨
          ∃ start ∈ listStarts (head :: rest), entry next rest = .before start := by
        rcases entry_cases next rest with same | ⟨start, member, same⟩
        · exact .inl same
        · exact .inr ⟨start, mem_list_starts_cons.mpr (.inr (.inr member)), same⟩
      have afterHead : head.after (entry next rest) = next ∨
          ∃ start ∈ listStarts (head :: rest),
            head.after (entry next rest) = .before start := by
        rcases head.after_cases (entry next rest) with same | same
        · rw [same]
          exact behindHead
        · exact .inr ⟨head.start, mem_list_starts_cons.mpr (.inl rfl), same⟩
      have widen : ∀ {part : CodeScope}, part ∈ head.parts → ∀ start ∈ listStarts part.body,
          start ∈ listStarts (head :: rest) := by
        intro part member start found
        exact mem_list_starts_cons.mpr (.inr (.inl ⟨part, member, found⟩))
      rcases mem_list_placed_cons.mp placed with ⟨rfl, rfl⟩ | ⟨part, member, inside⟩ | inside
      · rcases ways_cases way with ⟨label, goes, _⟩ | ⟨_, rfl | ⟨part, member, rfl⟩⟩
        · simp [falls] at goes
        · exact behindHead
        · rcases entry_cases (stmt.after (entry next rest)) part.body with same | found
          · rw [same]
            exact afterHead
          · obtain ⟨start, found, same⟩ := found
            exact .inr ⟨start, widen member start found, same⟩
      · rcases inner part member inside with rfl | ⟨start, found, same⟩
        · exact afterHead
        · exact .inr ⟨start, widen member start found, same⟩
      · rcases outer inside with same | ⟨start, found, same⟩
        · exact .inl same
        · exact .inr ⟨start, mem_list_starts_cons.mpr (.inr (.inr found)), same⟩

/-- One edge of the graph that follows no jump. -/
def Flows (past : Bool) (body : List Stmt) (source target : Point) : Prop :=
  ∃ stmt next, (stmt, next) ∈ listPlaced .finish body ∧ stmt.target? = none ∧
    source = .before stmt.start ∧ target ∈ stmt.ways past next

theorem Flows.steps {past : Bool} {body : List Stmt} {source target : Point}
    (flows : Flows past body source target) : Steps past body source target := by
  obtain ⟨stmt, next, placed, _, same, way⟩ := flows
  exact steps_iff.mpr ⟨stmt, next, placed, same, way⟩

theorem steps_cases {past : Bool} {body : List Stmt} {source target : Point}
    (step : Steps past body source target) :
    Flows past body source target ∨
      ∃ jump ∈ listStatements body, ∃ label, jump.target? = some label ∧
        source = .before jump.start ∧ target = .before label.label := by
  obtain ⟨stmt, next, placed, same, way⟩ := steps_iff.mp step
  cases goes : stmt.target? with
  | none => exact .inl ⟨stmt, next, placed, goes, same, way⟩
  | some label =>
      refine .inr ⟨stmt, mem_statements_of_placed placed, label, goes, same, ?_⟩
      cases stmt with
      | jump info name found =>
          obtain rfl : found = some label := goes
          simpa [ways] using way
      | _ => simp [target?] at goes

theorem steps_of_jump {past : Bool} {body : List Stmt} {jump : Stmt} {label : JumpTarget}
    (inside : jump ∈ listStatements body) (goes : jump.target? = some label) :
    Steps past body (.before jump.start) (.before label.label) := by
  rw [← list_placed_statements .finish] at inside
  obtain ⟨⟨stmt, next⟩, placed, rfl⟩ := List.mem_map.mp inside
  refine steps_iff.mpr ⟨stmt, next, placed, rfl, ?_⟩
  cases stmt with
  | jump info name found =>
      obtain rfl : found = some label := goes
      exact List.mem_singleton_self _
  | _ => simp [target?] at goes

end Stmt

end Lsl
