import Lsl.Proofs.Parsing.Clauses

/-!
Readers that call each other. Where every call is made further on, or in the same place for a task of
lower rank, no call comes back to a task without a token read in between. The readers then come to
an end: their equations have one solution, and a bound on the number of steps that is large enough
for the tokens ahead is never reached.
-/

set_option autoImplicit false

namespace Lsl

namespace Parser

/-- From a closed cursor the reader goes forward, also where it fails, and where it succeeds the
property holds of the cursor it leaves. -/
def Goes {α : Type} (reader : Parser α) (cursor : Cursor) (property : Cursor → Prop) : Prop :=
  cursor.Closed →
    Derives (fun _ after => cursor.Reaches after) reader cursor fun _ after =>
      cursor.Reaches after ∧ property after

namespace Goes

variable {α β : Type} {cursor : Cursor} {middle property : Cursor → Prop}

theorem pure {value : α} (holds : property cursor) : Goes (Pure.pure value) cursor property :=
  fun _ => .pure ⟨.refl cursor, holds⟩

theorem fail {error : SyntaxError} : Goes (throw error : Parser α) cursor property :=
  fun _ => Cursor.Reaches.refl cursor

theorem mismatched {expecting : String} :
    Goes (Parser.mismatched expecting : Parser α) cursor property :=
  fun _ => Cursor.Reaches.refl cursor

theorem weaken {reader : Parser α} (goes : Goes reader cursor middle)
    (implies : ∀ after, middle after → property after) : Goes reader cursor property :=
  fun closed => (goes closed).weaken fun _ after outcome => ⟨outcome.1, implies after outcome.2⟩

theorem congr {first second : Parser α} (goes : Goes first cursor property)
    (same : cursor.Closed → first cursor = second cursor) : Goes second cursor property := by
  intro closed
  unfold Derives
  rw [← same closed]
  exact goes closed

theorem bind {reader : Parser α} {next : α → Parser β} (first : Goes reader cursor middle)
    (second : ∀ value after, cursor.Reaches after → middle after → Goes (next value) after property) :
    Goes (reader >>= next) cursor property := by
  intro closed
  refine Derives.bind (first closed) fun value after outcome => ?_
  have rest := second value after outcome.1 outcome.2 (closed.after outcome.1)
  apply (rest.weaken fun _ last final => ?_).later
  · exact fun _ last further => outcome.1.trans further
  · exact ⟨outcome.1.trans final.1, final.2⟩

theorem phrase {reader : Parser α} {shape : α → Phrase}
    (derives : cursor.close.kind = .endOfFile →
      Derives cursor.Faults reader cursor fun value after => (shape value).Runs cursor after) :
    Goes reader cursor fun _ => True := by
  intro closed
  apply ((derives closed.close).weaken fun value after runs => ?_).later
  · exact fun error after faults => (faults.carried .reaches).1
  · exact ⟨runs.passes.reaches, trivial⟩

theorem advancing {reader : Parser α} {shape : α → Phrase}
    (derives : cursor.close.kind = .endOfFile →
      Derives cursor.Faults reader cursor fun value after => (shape value).Runs cursor after)
    (moves : ∀ value after, (shape value).Moves cursor after → cursor.Advances after) :
    Goes reader cursor fun after => after.ahead.length < cursor.ahead.length := by
  intro closed
  apply ((derives closed.close).weaken fun value after runs => ?_).later
  · exact fun error after faults => (faults.carried .reaches).1
  · exact ⟨runs.passes.reaches, (moves value after runs.moves).length_lt closed.close⟩

theorem next (open_ : cursor.kind ≠ .endOfFile) :
    Goes Parser.next cursor fun after => after.ahead.length < cursor.ahead.length :=
  fun closed => ⟨cursor.reaches_step, Cursor.length_step_lt closed.close open_⟩

theorem expect_or {kind : TokenKind} {expecting : String} (open_ : kind ≠ .endOfFile) :
    Goes (Parser.expectOr kind expecting) cursor fun after =>
      after.ahead.length < cursor.ahead.length := by
  intro closed
  unfold Parser.expectOr
  apply Derives.peek_bind
  split
  · rename_i found
    exact next (found ▸ open_) closed
  · exact mismatched closed

theorem type : Goes Parser.type cursor fun after => after.ahead.length < cursor.ahead.length := by
  refine bind (expect_or (by decide)) fun token after _ shorter => ?_
  split
  · exact pure shorter
  · exact fail

theorem fresh_scope : Goes Parser.freshScope cursor fun _ => True :=
  fun _ => ⟨Cursor.Carries.reaches.numbered cursor, trivial⟩

end Goes

/-- From a closed cursor two readers do the same. They go forward, and where they succeed the property
holds of the cursor they leave. -/
structure Agree {α : Type} (first second : Parser α) (cursor : Cursor) (property : Cursor → Prop) :
    Prop where
  same : cursor.Closed → first cursor = second cursor
  goes : Goes first cursor property

namespace Agree

variable {α β : Type} {first second : Parser α} {cursor : Cursor} {middle property : Cursor → Prop}

theorem refl {reader : Parser α} (goes : Goes reader cursor property) :
    Agree reader reader cursor property :=
  ⟨fun _ => rfl, goes⟩

theorem pure {value : α} (holds : property cursor) :
    Agree (Pure.pure value) (Pure.pure value) cursor property :=
  refl (.pure holds)

theorem weaken (agree : Agree first second cursor middle)
    (implies : ∀ after, middle after → property after) : Agree first second cursor property :=
  ⟨agree.same, agree.goes.weaken implies⟩

/-- Readers in a row. Where the first ones succeed they leave a cursor that is no further back. -/
theorem bind {next other : α → Parser β} (begun : Agree first second cursor middle)
    (rest : ∀ value after, after.ahead.length ≤ cursor.ahead.length → middle after →
      Agree (next value) (other value) after property) :
    Agree (first >>= next) (second >>= other) cursor property := by
  constructor
  · intro closed
    have outcome := begun.goes closed
    simp only [Bind.bind, EStateM.bind, ← begun.same closed]
    cases read : first cursor with
    | error error after => rfl
    | ok value after =>
        obtain ⟨reaches, holds⟩ := outcome.ok read
        exact (rest value after reaches.ahead.length_le holds).same (closed.after reaches)
  · refine begun.goes.bind fun value after reaches holds => ?_
    exact (rest value after reaches.ahead.length_le holds).goes

theorem past {reader : Parser α} {next other : α → Parser β} (goes : Goes reader cursor middle)
    (rest : ∀ value after, after.ahead.length ≤ cursor.ahead.length → middle after →
      Agree (next value) (other value) after property) :
    Agree (reader >>= next) (reader >>= other) cursor property :=
  (refl goes).bind rest

theorem peek_bind {next other : Cursor → Parser β}
    (rest : Agree (next cursor) (other cursor) cursor property) :
    Agree (Parser.peek >>= next) (Parser.peek >>= other) cursor property :=
  ⟨rest.same, rest.goes⟩

theorem span_from_bind {start : Position} {next other : Span → Parser β}
    (rest : Agree (next (cursor.spanFrom start)) (other (cursor.spanFrom start)) cursor property) :
    Agree (Parser.spanFrom start >>= next) (Parser.spanFrom start >>= other) cursor property :=
  ⟨rest.same, rest.goes⟩

theorem next {next other : Token → Parser β} (open_ : cursor.kind ≠ .endOfFile)
    (rest : ∀ token after, after.ahead.length < cursor.ahead.length →
      Agree (next token) (other token) after property) :
    Agree (Parser.next >>= next) (Parser.next >>= other) cursor property :=
  past (.next open_) fun token after _ shorter => rest token after shorter

theorem expect {kind : TokenKind} {next other : Token → Parser β} (open_ : kind ≠ .endOfFile)
    (rest : ∀ token after, after.ahead.length < cursor.ahead.length →
      Agree (next token) (other token) after property) :
    Agree (Parser.expect kind >>= next) (Parser.expect kind >>= other) cursor property :=
  past (.expect_or open_) fun token after _ shorter => rest token after shorter

theorem accept {kind : TokenKind} {taken takes passed passes : Parser β}
    (open_ : kind ≠ .endOfFile)
    (present : ∀ after, after.ahead.length < cursor.ahead.length → Agree taken takes after property)
    (absent : Agree passed passes cursor property) :
    Agree (do if ← Parser.accept kind then taken else passed)
      (do if ← Parser.accept kind then takes else passes) cursor property := by
  unfold Parser.accept
  rw [bind_assoc, bind_assoc]
  apply peek_bind
  split
  · rename_i found
    rw [bind_assoc, bind_assoc]
    exact next (found ▸ open_) fun _ after shorter => present after shorter
  · exact absent

end Agree

end Parser

/-- Readers for tasks, each made of calls for others. -/
structure Recursion where
  Task : Type → Type
  rank : {α : Type} → Task α → Nat
  takes : {α : Type} → Task α → Prop
  step : ((α : Type) → Task α → Parser α) → (α : Type) → Task α → Parser α
  rank_lt : ∀ {α : Type} (task : Task α), rank task < 8

namespace Recursion

variable (family : Recursion)

abbrev Readers : Type 1 := (α : Type) → family.Task α → Parser α

/-- The one task stands further on than the other, or in the same place and has a lower rank. Of two
tasks of one kind it stands further on. -/
def Precedes {α β : Type} (inner : family.Task β) (after : Cursor) (task : family.Task α)
    (cursor : Cursor) : Prop :=
  after.ahead.length < cursor.ahead.length ∨
    after.ahead.length = cursor.ahead.length ∧ family.rank inner < family.rank task

def AgreeOn (calls other : family.Readers) {α : Type} (task : family.Task α) (cursor : Cursor) :
    Prop :=
  Parser.Agree (calls α task) (other α task) cursor fun after =>
    family.takes task → after.ahead.length < cursor.ahead.length

/-- Two families of readers agree on the calls a task may make. -/
def AgreeBefore (calls other : family.Readers) {α : Type} (task : family.Task α)
    (cursor : Cursor) : Prop :=
  ∀ {β : Type} (inner : family.Task β) (after : Cursor),
    family.Precedes inner after task cursor → family.AgreeOn calls other inner after

/-- What a task does depends on nothing but calls that precede it. -/
def Descends : Prop :=
  ∀ (calls other : family.Readers) {α : Type} (task : family.Task α) (cursor : Cursor),
    family.AgreeBefore calls other task cursor →
    family.AgreeOn (family.step calls) (family.step other) task cursor

/-- The readers are made of themselves, without a bound on their steps. -/
def Solves (calls : family.Readers) : Prop :=
  ∀ {α : Type} (task : family.Task α) (cursor : Cursor), cursor.Closed →
    calls α task cursor = family.step calls α task cursor

/-- A call that a task makes, itself or through other calls. -/
inductive Encloses {α : Type} (task : family.Task α) (cursor : Cursor) :
    {β : Type} → family.Task β → Cursor → Prop where
  | direct {β : Type} {inner : family.Task β} {after : Cursor}
      (precedes : family.Precedes inner after task cursor) : Encloses task cursor inner after
  | through {β γ : Type} {middle : family.Task β} {inner : family.Task γ} {between after : Cursor}
      (outer : Encloses task cursor middle between)
      (precedes : family.Precedes inner after middle between) : Encloses task cursor inner after

/-- Readers with a bound on their steps, with as many of them as the tokens ahead call for. -/
def budgeted (within : Nat → family.Readers) : family.Readers :=
  fun α task cursor => within cursor.budget α task cursor

/-- Readers that are made of calls for each other come to an end. -/
structure Ends (within : Nat → family.Readers) : Prop where
  descends : family.Descends
  /-- A call for a task like one that is still being read is made further on. -/
  further : ∀ {α β : Type} {task : family.Task α} {inner : family.Task β} {cursor after : Cursor},
    family.Encloses task cursor inner after → family.rank inner = family.rank task →
    after.ahead.length < cursor.ahead.length
  solves : family.Solves (family.budgeted within)
  unique : ∀ other, family.Solves other → ∀ {α : Type} (task : family.Task α) (cursor : Cursor),
    cursor.Closed → other α task cursor = family.budgeted within α task cursor
  bounded : ∀ {α : Type} (task : family.Task α) (cursor : Cursor) (fuel : Nat), cursor.Closed →
    cursor.budget ≤ fuel → within fuel α task cursor = family.budgeted within α task cursor

/-- More steps than it takes to come to an end. -/
def weight {α : Type} (task : family.Task α) (cursor : Cursor) : Nat :=
  8 * cursor.ahead.length + family.rank task

variable {family}

theorem weight_lt_budget {α : Type} (task : family.Task α) (cursor : Cursor) :
    family.weight task cursor < cursor.budget := by
  have small := family.rank_lt task
  unfold weight Cursor.budget
  omega

theorem Precedes.weight_lt {α β : Type} {inner : family.Task β} {after : Cursor}
    {task : family.Task α} {cursor : Cursor} (precedes : family.Precedes inner after task cursor) :
    family.weight inner after < family.weight task cursor := by
  -- A token further on outweighs every rank.
  have small := family.rank_lt inner
  unfold weight
  rcases precedes with further | ⟨same, lower⟩ <;> omega

theorem Encloses.precedes {α β : Type} {task : family.Task α} {inner : family.Task β}
    {cursor after : Cursor} (encloses : family.Encloses task cursor inner after) :
    family.Precedes inner after task cursor := by
  induction encloses with
  | direct precedes => exact precedes
  | through outer precedes induction =>
      unfold Precedes at *
      omega

namespace AgreeBefore

variable {calls other : family.Readers} {α β : Type} {task : family.Task α} {cursor after : Cursor}
  (before : family.AgreeBefore calls other task cursor)

include before

theorem call (inner : family.Task β) (shorter : after.ahead.length < cursor.ahead.length) :
    Parser.Agree (calls β inner) (other β inner) after fun _ => True :=
  (before inner after (.inl shorter)).weaken fun _ _ => trivial

theorem here (inner : family.Task β) (reached : after.ahead.length ≤ cursor.ahead.length)
    (lower : family.rank inner < family.rank task) : family.AgreeOn calls other inner after := by
  apply before inner after
  rcases Nat.lt_or_eq_of_le reached with shorter | same
  · exact .inl shorter
  · exact .inr ⟨same, lower⟩

end AgreeBefore

namespace Descends

variable (descends : family.Descends) {within : Nat → family.Readers}
  (unfolds : ∀ fuel, within (fuel + 1) = family.step (within fuel))

include descends

theorem unique {calls other : family.Readers} (solves : family.Solves calls)
    (solved : family.Solves other) {α : Type} (task : family.Task α) (cursor : Cursor) :
    family.AgreeOn calls other task cursor := by
  -- Whatever a task calls for weighs less, and is read alike by what comes before.
  induction heavy : family.weight task cursor using Nat.strong_induction_on generalizing α cursor with
  | _ weight induction =>
      have agree := descends calls other task cursor fun inner after precedes =>
        induction _ (heavy ▸ precedes.weight_lt) inner after rfl
      refine ⟨fun closed => ?_, agree.goes.congr fun closed => (solves task cursor closed).symm⟩
      rw [solves task cursor closed, solved task cursor closed]
      exact agree.same closed

include unfolds

theorem bounded {α : Type} (task : family.Task α) (cursor : Cursor) {fuel more : Nat}
    (enough : family.weight task cursor < fuel) (plenty : family.weight task cursor < more) :
    family.AgreeOn (within fuel) (within more) task cursor := by
  induction fuel generalizing α more cursor with
  | zero => omega
  | succ fuel induction =>
      obtain ⟨more, rfl⟩ := Nat.exists_eq_succ_of_ne_zero (Nat.ne_zero_of_lt plenty)
      rw [unfolds, Nat.succ_eq_add_one, unfolds]
      refine descends _ _ task cursor fun inner after precedes => ?_
      have lighter := precedes.weight_lt
      exact induction inner after (by omega) (by omega)

/-- Readers with a bound that grows with the tokens ahead need none. -/
theorem solves : family.Solves (family.budgeted within) := by
  intro α task cursor closed
  have enough := weight_lt_budget task cursor
  have more : family.weight task cursor < cursor.budget + 1 := by omega
  have same := (descends.bounded unfolds task cursor enough more).same closed
  rw [budgeted, same, unfolds]
  refine (descends _ _ task cursor fun inner after precedes => ?_).same closed
  have lighter := precedes.weight_lt
  have bounded := descends.bounded unfolds inner after (Nat.lt_trans lighter enough)
    (weight_lt_budget inner after)
  exact ⟨bounded.same, bounded.goes⟩

theorem ends : family.Ends within where
  descends := descends
  further := by
    intro α β task inner cursor after encloses same
    rcases encloses.precedes with further | ⟨_, lower⟩
    · exact further
    · omega
  solves := descends.solves unfolds
  unique := by
    intro other solved α task cursor closed
    exact (descends.unique solved (descends.solves unfolds) task cursor).same closed
  bounded := by
    intro α task cursor fuel closed enough
    have small := weight_lt_budget task cursor
    exact (descends.bounded unfolds task cursor (Nat.lt_of_lt_of_le small enough) small).same closed

end Descends

end Recursion

end Lsl
