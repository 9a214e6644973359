import Lsl.Proofs.Parsing.Deriving

/-!
What is read of statements. A clause runs from one cursor to another if it is a statement, or a part
of one, that is written between them; a statement that cannot be read runs up to what is skipped for
it. The readers of statements give clauses that run where they read, and the bound on their steps is
never reached. What holds of all statements is proved by induction on runs.
-/

set_option autoImplicit false

namespace Lsl

/-- What a reader of statements gives, or what has come of a statement before reading it fails. -/
inductive Clause where
  | statement (stmt : Stmt)
  | scope (role : ScopeRole) (info : ScopeInfo) (body : List Stmt)
  | statements (body : List Stmt)
  | turn (stmt : Stmt)
  | body (role : ScopeRole) (info : ScopeInfo) (body : List Stmt)
  | alternatives (rest : Alternatives)
  | begun
  | failure (error : SyntaxError)

namespace Cursor

/-- The number of a scope is taken. -/
def numbered (cursor : Cursor) : Cursor := { cursor with nextScope := cursor.nextScope + 1 }

def reported (cursor : Cursor) (error : SyntaxError) : Cursor :=
  { cursor with errors := cursor.errors ++ [error] }

/-- What cannot be read is reported, and some of the tokens ahead are skipped. -/
def abandoned (cursor : Cursor) (skip : List Token → Nat) (error : SyntaxError) : Cursor :=
  (cursor.reported error).skip (skip cursor.ahead)

end Cursor

inductive Clause.Runs : Clause → Cursor → Cursor → Prop where
  | plain {stmt : Stmt} {cursor after : Cursor}
      (inner : (Phrase.statement stmt).Runs cursor after) : Runs (.statement stmt) cursor after
  | block {info : ScopeInfo} {body : List Stmt} {cursor after : Cursor}
      (inner : Runs (.scope .block info body) cursor after) :
      Runs (.statement (.block info body)) cursor after
  | branch {value : Expr} {info : ScopeInfo} {body : List Stmt} {rest : Alternatives}
      {cursor first second after : Cursor} (word : cursor.kind = .ifWord)
      (test : (Phrase.condition value).Runs cursor.step first)
      (inner : Runs (.body .ifBody info body) first second)
      (others : Runs (.alternatives rest) second after) :
      Runs (.statement (.branch { span := after.spanFrom cursor.start }
        (second.spanFrom cursor.start) value info body rest)) cursor after
  | whileLoop {value : Expr} {info : ScopeInfo} {body : List Stmt} {cursor first after : Cursor}
      (word : cursor.kind = .whileWord) (test : (Phrase.condition value).Runs cursor.step first)
      (inner : Runs (.body .whileLoop info body) first after) :
      Runs (.statement (.whileLoop { span := after.spanFrom cursor.start } value info body)) cursor
        after
  | doLoop {value : Expr} {info : ScopeInfo} {body : List Stmt} {cursor first second : Cursor}
      (word : cursor.kind = .doWord) (inner : Runs (.body .doLoop info body) cursor.step first)
      (again : first.kind = .whileWord) (test : (Phrase.condition value).Runs first.step second)
      (ends : second.kind = .semicolon) :
      Runs (.statement (.doLoop { span := second.step.spanFrom cursor.start } info body value))
        cursor second.step
  | forLoop {init afterthought : Option ExprList} {value : Option Expr} {info : ScopeInfo}
      {body : List Stmt} {cursor first after : Cursor} (word : cursor.kind = .forWord)
      (clauses : (Phrase.loopClauses init value afterthought).Runs cursor.step first)
      (inner : Runs (.body .forLoop info body) first after) :
      Runs (.statement (.forLoop { span := after.spanFrom cursor.start } init value afterthought
        info body)) cursor after
  | scope {role : ScopeRole} {body : List Stmt} {cursor last : Cursor}
      (opens : cursor.kind = .openCurly) (inner : Runs (.statements body) cursor.step.numbered last)
      (closes : last.kind = .closeCurly) :
      Runs (.scope role ⟨last.step.spanFrom cursor.start, cursor.step.nextScope, role, false, .live⟩
        body) cursor last.step
  | ended {cursor : Cursor} (ends : cursor.kind = .closeCurly ∨ cursor.kind = .endOfFile) :
      Runs (.statements []) cursor cursor
  | followed {stmt : Stmt} {rest : List Stmt} {cursor middle after : Cursor}
      (inside : cursor.kind ≠ .closeCurly) (goes : cursor.kind ≠ .endOfFile)
      (inner : Runs (.turn stmt) cursor middle) (others : Runs (.statements rest) middle after) :
      Runs (.statements (stmt :: rest)) cursor after
  | read {stmt : Stmt} {cursor after : Cursor} (inner : Runs (.statement stmt) cursor after) :
      Runs (.turn stmt) cursor after
  | broken {error : SyntaxError} {cursor failed : Cursor} (inside : cursor.kind ≠ .closeCurly)
      (goes : cursor.kind ≠ .endOfFile) (inner : Runs (.failure error) cursor failed) :
      Runs (.turn (.broken ((failed.abandoned (Parser.statementSkip 0) error).brokenSpan
        cursor.start))) cursor (failed.abandoned (Parser.statementSkip 0) error)
  | braced {role : ScopeRole} {info : ScopeInfo} {body : List Stmt} {cursor after : Cursor}
      (inner : Runs (.scope role info body) cursor after) : Runs (.body role info body) cursor after
  | single {role : ScopeRole} {stmt : Stmt} {cursor after : Cursor}
      (other : cursor.kind ≠ .openCurly) (inner : Runs (.statement stmt) cursor.numbered after) :
      Runs (.body role ⟨stmt.span, cursor.nextScope, role, true, .live⟩ [stmt]) cursor after
  | done {cursor : Cursor} : Runs (.alternatives .done) cursor cursor
  | elseIf {value : Expr} {info : ScopeInfo} {body : List Stmt} {rest : Alternatives}
      {cursor first second after : Cursor} (word : cursor.kind = .elseWord)
      (again : cursor.step.kind = .ifWord)
      (test : (Phrase.condition value).Runs cursor.step.step first)
      (inner : Runs (.body .elseIfBody info body) first second)
      (others : Runs (.alternatives rest) second after) :
      Runs (.alternatives (.elseIf (second.spanFrom cursor.start) value info body rest)) cursor after
  | otherwise {info : ScopeInfo} {body : List Stmt} {cursor after : Cursor}
      (word : cursor.kind = .elseWord) (inner : Runs (.body .elseBody info body) cursor.step after) :
      Runs (.alternatives (.otherwise (after.spanFrom cursor.start) info body)) cursor after
  | here {cursor : Cursor} : Runs .begun cursor cursor
  | passed {cursor middle after : Cursor} (front : cursor.Passes middle)
      (rest : Runs .begun middle after) : Runs .begun cursor after
  | numbered {cursor middle after : Cursor} (front : cursor.Advances middle)
      (rest : Runs .begun middle.numbered after) : Runs .begun cursor after
  | part {role : ScopeRole} {info : ScopeInfo} {body : List Stmt} {cursor middle after : Cursor}
      (inner : Runs (.body role info body) cursor middle) (rest : Runs .begun middle after) :
      Runs .begun cursor after
  | fault {error : SyntaxError} {cursor middle failed : Cursor} (front : Runs .begun cursor middle)
      (faults : middle.Faults error failed) : Runs (.failure error) cursor failed
  | unclosed {body : List Stmt} {cursor middle last : Cursor} (front : Runs .begun cursor middle)
      (opens : middle.kind = .openCurly) (inner : Runs (.statements body) middle.step.numbered last)
      (ends : last.kind = .endOfFile) :
      Runs (.failure (last.mismatch TokenKind.closeCurly.grammarName)) cursor last

namespace Cursor

variable {cursor middle after failed : Cursor}

theorem reaches_reported (cursor : Cursor) (error : SyntaxError) :
    cursor.Reaches (cursor.reported error) :=
  ⟨List.suffix_refl _, rfl, List.prefix_append _ _⟩

theorem reaches_abandoned (cursor : Cursor) (skip : List Token → Nat) (error : SyntaxError) :
    cursor.Reaches (cursor.abandoned skip error) :=
  (cursor.reaches_reported error).trans (reaches_skip _ _)

theorem errors_abandoned_ne (reaches : cursor.Reaches failed) (skip : List Token → Nat)
    (error : SyntaxError) : (failed.abandoned skip error).errors ≠ cursor.errors := by
  intro silent
  have front := reaches.errors.length_le
  have back := ((failed.reported error).reaches_skip (skip failed.ahead)).errors.length_le
  have same := congrArg List.length silent
  simp only [reported, abandoned, List.length_append, List.length_singleton] at back same
  omega

/-- An error that is raised at a place met from the cursor: a token is missed, or one names nothing,
or an assignment stands behind what cannot be assigned to. -/
inductive Raises (relation : Cursor → Cursor → Prop) (cursor : Cursor) : SyntaxError → Prop
  | missed {place : Cursor} {expecting : String} (onward : relation cursor place)
      (listed : expecting ∈ expectations)
      (other : expecting = Parser.afterExpression → place.kind.isAssignment = false) :
      Raises relation cursor (place.mismatch expecting)
  | unnamed {place : Cursor} {expecting : String} (onward : relation cursor place)
      (plain : place.kind.Plain) (listed : expecting ∈ expectations)
      (other : expecting ≠ Parser.afterExpression) :
      Raises relation cursor (.mismatched place.current expecting)
  | refused {origin place : Cursor} {power : Power} {left : Expr} (begins : relation cursor origin)
      (onward : relation cursor place) (runs : Phrase.Runs (.chain power left) origin place)
      (fixed : left.isAssignable = false) (assigns : place.kind.isAssignment = true) :
      Raises relation cursor (place.mismatch Parser.afterExpression)

theorem Raises.place {relation : Cursor → Cursor → Prop} {error : SyntaxError}
    (raises : Raises relation cursor error) :
    ∃ place, relation cursor place ∧ error.span = place.current.span := by
  cases raises with
  | missed onward | unnamed onward | refused _ onward => exact ⟨_, onward, rfl⟩

/-- A relation of cursors that all readers preserve, as each of their steps does: a token is stepped
over, a number is taken, an error is reported. -/
structure Carries (relation : Cursor → Cursor → Prop) : Prop where
  refl : ∀ cursor, relation cursor cursor
  trans : ∀ {first second third}, relation first second → relation second third →
    relation first third
  step : ∀ cursor, relation cursor cursor.step
  numbered : ∀ cursor, relation cursor cursor.numbered
  reported : ∀ {cursor failed error}, relation cursor failed → Raises relation cursor error →
    relation cursor (failed.reported error)

theorem Carries.reaches : Carries Reaches where
  refl := .refl
  trans := .trans
  step := reaches_step
  numbered _ := ⟨List.suffix_refl _, rfl, List.prefix_refl _⟩
  reported reaches _ := reaches.trans (reaches_reported _ _)

section

variable {relation : Cursor → Cursor → Prop} (carries : Carries relation)

include carries

theorem Raises.later {error : SyntaxError} (front : relation cursor middle)
    (raises : Raises relation middle error) : Raises relation cursor error := by
  cases raises with
  | missed onward listed other => exact .missed (carries.trans front onward) listed other
  | unnamed onward plain listed other =>
      exact .unnamed (carries.trans front onward) plain listed other
  | refused begins onward runs fixed assigns =>
      exact .refused (carries.trans front begins) (carries.trans front onward) runs fixed assigns

theorem Passes.carried (passed : cursor.Passes after) : relation cursor after := by
  induction passed with
  | here => exact carries.refl _
  | token _ _ rest => exact carries.trans (carries.step _) rest

theorem Faults.carried {error : SyntaxError} (faults : cursor.Faults error after) :
    relation cursor after ∧ Raises relation cursor error := by
  cases faults with
  | missed passed listed other =>
      have onward := passed.carried carries
      exact ⟨onward, .missed onward listed other⟩
  | unnamed passed plain listed other =>
      have onward := passed.carried carries
      exact ⟨carries.trans onward (carries.step _), .unnamed onward plain listed other⟩
  | refused passed runs fixed assigns =>
      have begins := passed.carried carries
      have onward := carries.trans begins (runs.passes.carried carries)
      exact ⟨onward, .refused begins onward runs fixed assigns⟩

theorem skip_carried (cursor : Cursor) (count : Nat) : relation cursor (cursor.skip count) := by
  induction count generalizing cursor with
  | zero => exact carries.refl cursor
  | succ count induction => exact carries.trans (carries.step cursor) (induction cursor.step)

theorem abandoned_carried {error : SyntaxError} {skip : List Token → Nat}
    (reached : relation cursor failed) (raises : Raises relation cursor error) :
    relation cursor (failed.abandoned skip error) :=
  carries.trans (carries.reported reached raises) (skip_carried carries _ _)

end

/-- Where nothing was read before the failure, the token that failed is skipped. -/
theorem abandoned_shorter {skip : List Token → Nat} (reaches : cursor.Reaches failed)
    (closed : cursor.close.kind = .endOfFile) (goes : cursor.kind ≠ .endOfFile)
    (skips : ∀ token rest, token.kind = cursor.kind → 0 < skip (token :: rest))
    (error : SyntaxError) :
    (failed.abandoned skip error).ahead.length < cursor.ahead.length := by
  rcases Nat.lt_or_ge failed.ahead.length cursor.ahead.length with further | stays
  · exact Nat.lt_of_le_of_lt (failed.reaches_abandoned skip error).ahead.length_le further
  · have same : failed.ahead = cursor.ahead := reaches.ahead.eq_of_length_le stays
    cases ahead : cursor.ahead with
    | nil => exact absurd (by simpa [kind, current, ahead] using closed) goes
    | cons token rest =>
        have positive := skips token rest (by simp [kind, current, ahead])
        have skipped : (failed.abandoned skip error).ahead =
            (token :: rest).drop (skip (token :: rest)) := by
          rw [abandoned, ahead_skip, same, ahead]
          exact congrArg _ (same.trans ahead)
        rw [skipped, List.length_drop, List.length_cons]
        omega

end Cursor

namespace Clause.Runs

variable {clause : Clause} {cursor after : Cursor}

/-- A reader preserves what its steps preserve, and where it fails there is a token at fault. -/
theorem carried {relation : Cursor → Cursor → Prop} (carries : Cursor.Carries relation)
    (runs : clause.Runs cursor after) :
    relation cursor after ∧ ∀ error, clause = .failure error →
      Cursor.Raises relation cursor error := by
  have step {place last : Cursor} (rest : relation place.step last) : relation place last :=
    carries.trans (carries.step place) rest
  have phrase {phrase : Phrase} {place middle last : Cursor} (inner : phrase.Runs place middle)
      (rest : relation middle last) : relation place last :=
    carries.trans (inner.passes.carried carries) rest
  have number {place last : Cursor} (rest : relation place.numbered last) : relation place last :=
    carries.trans (carries.numbered place) rest
  induction runs with
  | plain inner => exact ⟨inner.passes.carried carries, nofun⟩
  | block _ inner | braced _ inner | read _ inner => exact ⟨inner.1, nofun⟩
  | branch _ test _ _ inner others =>
      exact ⟨step (phrase test (carries.trans inner.1 others.1)), nofun⟩
  | whileLoop _ test _ inner => exact ⟨step (phrase test inner.1), nofun⟩
  | doLoop _ _ _ test _ inner =>
      exact ⟨step (carries.trans inner.1 (step (phrase test (carries.step _)))), nofun⟩
  | forLoop _ clauses _ inner => exact ⟨step (phrase clauses inner.1), nofun⟩
  | scope _ _ _ inner => exact ⟨step (number (carries.trans inner.1 (carries.step _))), nofun⟩
  | ended | done | here => exact ⟨carries.refl _, nofun⟩
  | followed _ _ _ _ inner others => exact ⟨carries.trans inner.1 others.1, nofun⟩
  | broken _ _ _ inner =>
      exact ⟨Cursor.abandoned_carried carries inner.1 (inner.2 _ rfl), nofun⟩
  | single _ _ inner => exact ⟨number inner.1, nofun⟩
  | elseIf _ _ test _ _ inner others =>
      exact ⟨step (step (phrase test (carries.trans inner.1 others.1))), nofun⟩
  | otherwise _ _ inner => exact ⟨step inner.1, nofun⟩
  | passed front _ rest => exact ⟨carries.trans (front.carried carries) rest.1, nofun⟩
  | numbered front _ rest =>
      exact ⟨carries.trans (front.passes.carried carries) (number rest.1), nofun⟩
  | part _ _ inner rest => exact ⟨carries.trans inner.1 rest.1, nofun⟩
  | fault _ faults front =>
      obtain ⟨onward, raises⟩ := faults.carried carries
      refine ⟨carries.trans front.1 onward, fun error same => ?_⟩
      cases same
      exact raises.later carries front.1
  | unclosed _ _ _ _ front inner =>
      have whole := carries.trans front.1 (step (number inner.1))
      refine ⟨whole, fun error same => ?_⟩
      cases same
      exact .missed whole (by decide) fun other => absurd other (by decide)

theorem reaches (runs : clause.Runs cursor after) : cursor.Reaches after :=
  (runs.carried .reaches).1

theorem closed (runs : clause.Runs cursor after) (closed : cursor.close.kind = .endOfFile) :
    after.close.kind = .endOfFile :=
  runs.reaches.closed closed

theorem length_le (runs : clause.Runs cursor after) :
    after.ahead.length ≤ cursor.ahead.length :=
  runs.reaches.ahead.length_le

theorem stops {body : List Stmt} (runs : (Clause.statements body).Runs cursor after) :
    after.kind = .closeCurly ∨ after.kind = .endOfFile := by
  generalize same : Clause.statements body = clause at runs
  induction runs generalizing body with
  | ended ends => exact ends
  | followed _ _ _ _ _ others => exact others rfl
  | _ => cases same

theorem statement_shorter {stmt : Stmt} (runs : (Clause.statement stmt).Runs cursor after)
    (closed : cursor.close.kind = .endOfFile) : after.ahead.length < cursor.ahead.length := by
  have first {kind : TokenKind} {last : Cursor} (found : cursor.kind = kind)
      (goes : kind ≠ .endOfFile) (reaches : cursor.step.Reaches last) :
      last.ahead.length < cursor.ahead.length :=
    Nat.lt_of_le_of_lt reaches.ahead.length_le (Cursor.length_step_lt closed (found ▸ goes))
  cases runs with
  | plain inner => exact Cursor.Advances.length_lt closed inner.moves
  | block inner =>
      cases inner with
      | scope opens inner _ =>
          exact first opens (by decide) ((Cursor.Carries.reaches.numbered _).trans
            (inner.reaches.trans (Cursor.reaches_step _)))
  | branch word test inner others =>
      exact first word (by decide) (test.passes.reaches.trans (inner.reaches.trans others.reaches))
  | whileLoop word test inner =>
      exact first word (by decide) (test.passes.reaches.trans inner.reaches)
  | doLoop word inner _ test _ =>
      exact first word (by decide) (inner.reaches.trans ((Cursor.reaches_step _).trans
        (test.passes.reaches.trans (Cursor.reaches_step _))))
  | forLoop word clauses inner =>
      exact first word (by decide) (clauses.passes.reaches.trans inner.reaches)

/-- Either a statement is read, or one is skipped. -/
theorem turn_shorter {stmt : Stmt} (runs : (Clause.turn stmt).Runs cursor after)
    (closed : cursor.close.kind = .endOfFile) : after.ahead.length < cursor.ahead.length := by
  cases runs with
  | read inner => exact inner.statement_shorter closed
  | broken inside goes inner =>
      exact Cursor.abandoned_shorter inner.reaches closed goes
        (fun _ rest same => Parser.statement_skip_pos rest (same ▸ inside)) _

/-- What has come of a statement goes on with more of it. -/
theorem trans {middle : Cursor} (front : Clause.begun.Runs cursor middle)
    (back : Clause.begun.Runs middle after) : Clause.begun.Runs cursor after := by
  generalize same : Clause.begun = clause at front
  induction front with
  | here => exact back
  | passed passed _ rest => exact .passed passed (rest back same)
  | numbered advances _ rest => exact .numbered advances (rest back same)
  | part inner _ _ rest => exact .part inner (rest back same)
  | _ => cases same

end Clause.Runs

/-- Reading a statement, or a part of one, fails. -/
def Cursor.Fails (cursor : Cursor) (error : SyntaxError) (after : Cursor) : Prop :=
  (Clause.failure error).Runs cursor after

/-- Reading a body fails, with or without a number taken for it. -/
def Cursor.Stalls (cursor : Cursor) (error : SyntaxError) (after : Cursor) : Prop :=
  cursor.Fails error after ∨ cursor.numbered.Fails error after

namespace Cursor

variable {cursor middle : Cursor}

theorem Passes.begun (passed : cursor.Passes middle) : Clause.begun.Runs cursor middle :=
  .passed passed .here

theorem Faults.fails {error : SyntaxError} {after : Cursor} (faults : cursor.Faults error after) :
    cursor.Fails error after :=
  .fault .here faults

theorem Fails.later (front : Clause.begun.Runs cursor middle) :
    ∀ error after, middle.Fails error after → cursor.Fails error after := by
  intro error after fails
  cases fails with
  | fault further faults => exact .fault (front.trans further) faults
  | unclosed further opens inner ends => exact .unclosed (front.trans further) opens inner ends

theorem Stalls.later (front : cursor.Advances middle) :
    ∀ error after, middle.Stalls error after → cursor.Fails error after := by
  intro error after stalls
  rcases stalls with fails | fails
  · exact Fails.later front.passes.begun error after fails
  · exact Fails.later (.numbered front .here) error after fails

theorem Fails.faulty (front : Clause.begun.Runs cursor middle) :
    ∀ error after, middle.Faults error after → cursor.Fails error after :=
  fun error after faults => Fails.later front error after faults.fails

end Cursor

/-- Reading a scope fails where it is not opened, or where it is not closed before the script ends. -/
inductive Cursor.Misses (cursor : Cursor) : SyntaxError → Cursor → Prop
  | unopened (other : cursor.kind ≠ .openCurly) :
      Misses cursor (cursor.mismatch TokenKind.openCurly.grammarName) cursor
  | unclosed {body : List Stmt} {last : Cursor} (opens : cursor.kind = .openCurly)
      (inner : (Clause.statements body).Runs cursor.step.numbered last)
      (ends : last.kind = .endOfFile) :
      Misses cursor (last.mismatch TokenKind.closeCurly.grammarName) last

theorem Cursor.Misses.fails {cursor after : Cursor} {error : SyntaxError}
    (misses : cursor.Misses error after) : cursor.Fails error after := by
  cases misses with
  | unopened _ =>
      exact Cursor.Faults.fails (.missed (.here _) (by decide) fun same => absurd same (by decide))
  | unclosed opens inner ends => exact .unclosed .here opens inner ends

namespace Parser.Derives

variable {α β : Type} {fails : SyntaxError → Cursor → Prop} {cursor : Cursor}

theorem recovering {inner : SyntaxError → Cursor → Prop} {reader : Parser α}
    {handle : SyntaxError → Parser α} {middle property : α → Cursor → Prop}
    (derives : Derives inner reader cursor middle)
    (kept : ∀ value after, middle value after → property value after)
    (handled : ∀ error after, inner error after → Derives fails (handle error) after property) :
    Derives fails (Parser.recovering reader handle) cursor property := by
  unfold Derives at derives
  simp only [Derives, Parser.recovering]
  cases read : reader cursor with
  | ok value after =>
      rw [read] at derives
      exact kept value after derives
  | error error after =>
      rw [read] at derives
      exact handled error after derives

theorem fresh_scope_bind {next : Nat → Parser β} {property : β → Cursor → Prop}
    (rest : Derives fails (next cursor.nextScope) cursor.numbered property) :
    Derives fails (Parser.freshScope >>= next) cursor property :=
  rest

theorem report_bind {error : SyntaxError} {reader : Parser β} {property : β → Cursor → Prop}
    (rest : Derives fails reader (cursor.reported error) property) :
    Derives fails (Parser.report error >>= fun _ => reader) cursor property :=
  rest

theorem break_statement {start : Position} {error : SyntaxError} {property : Stmt → Cursor → Prop}
    (holds : property (.broken ((cursor.abandoned (statementSkip 0) error).brokenSpan start))
      (cursor.abandoned (statementSkip 0) error)) :
    Derives fails (Parser.breakStatement start error) cursor property :=
  holds

theorem statement_turn {reader : Parser Stmt} (inside : cursor.kind ≠ .closeCurly)
    (goes : cursor.kind ≠ .endOfFile)
    (derives : Derives cursor.Fails reader cursor fun stmt after =>
      (Clause.statement stmt).Runs cursor after) :
    Derives (fun _ _ => False) (Parser.recovering reader (Parser.breakStatement cursor.start)) cursor
      fun stmt after => (Clause.turn stmt).Runs cursor after :=
  recovering derives (fun _ _ inner => .read inner) fun _ _ fails =>
    break_statement (.broken inside goes fails)

/-- The readers of statements derive clauses, with a bound on their steps that is large enough for
the tokens ahead. -/
structure Statements (fuel : Nat) : Prop where
  statement : ∀ cursor, cursor.close.kind = .endOfFile → 3 * cursor.ahead.length + 1 ≤ fuel →
    Derives cursor.Fails (statementWithin fuel) cursor fun stmt after =>
      (Clause.statement stmt).Runs cursor after
  scope : ∀ role cursor, cursor.close.kind = .endOfFile → 3 * cursor.ahead.length ≤ fuel →
    Derives cursor.Misses (scopeWithin fuel role) cursor fun result after =>
      (Clause.scope role result.1 result.2).Runs cursor after
  statements : ∀ cursor, cursor.close.kind = .endOfFile → 3 * cursor.ahead.length + 2 ≤ fuel →
    Derives (fun _ _ => False) (statementsWithin fuel) cursor fun body after =>
      (Clause.statements body).Runs cursor after
  body : ∀ role cursor, cursor.close.kind = .endOfFile → 3 * cursor.ahead.length + 2 ≤ fuel →
    Derives cursor.Stalls (bodyWithin fuel role) cursor fun result after =>
      (Clause.body role result.1 result.2).Runs cursor after
  alternatives : ∀ cursor, cursor.close.kind = .endOfFile → 3 * cursor.ahead.length + 1 ≤ fuel →
    Derives cursor.Fails (alternativesWithin fuel) cursor fun rest after =>
      (Clause.alternatives rest).Runs cursor after

section

variable {fuel : Nat} (before : Statements fuel) (closed : cursor.close.kind = .endOfFile)

include before closed

theorem scope_succ (role : ScopeRole) (enough : 3 * cursor.ahead.length ≤ fuel + 1) :
    Derives cursor.Misses (scopeWithin (fuel + 1) role) cursor fun result after =>
      (Clause.scope role result.1 result.2).Runs cursor after := by
  rw [scopeWithin]
  refine expect_or_else (fun opens => ?_) .unopened
  have fewer := Cursor.length_step_lt closed (opens ▸ by decide)
  apply fresh_scope_bind
  have inside := before.statements cursor.step.numbered (cursor.reaches_step.closed closed) (by
    show 3 * cursor.step.ahead.length + 2 ≤ fuel
    omega)
  apply bind (inside.later fun _ _ => False.elim)
  intro body last inner
  refine expect_or_else (fun closes => ?_) fun open_ => ?_
  · exact span_from_bind (pure (.scope opens inner closes))
  · exact .unclosed opens inner (inner.stops.resolve_left open_)

theorem statements_succ (enough : 3 * cursor.ahead.length + 1 ≤ fuel) :
    Derives (fun _ _ => False) (statementsWithin (fuel + 1)) cursor fun body after =>
      (Clause.statements body).Runs cursor after := by
  rw [statementsWithin]
  apply peek_bind
  split
  · rename_i ends
    exact pure (.ended ends)
  · rename_i inside
    rw [not_or] at inside
    apply bind (statement_turn inside.1 inside.2 (before.statement cursor closed enough))
    intro stmt middle inner
    have fewer := inner.turn_shorter closed
    apply bind (before.statements middle (inner.closed closed) (by omega))
    intro rest after others
    exact pure (.followed inside.1 inside.2 inner others)

theorem body_succ (role : ScopeRole) (enough : 3 * cursor.ahead.length + 1 ≤ fuel) :
    Derives cursor.Stalls (bodyWithin (fuel + 1) role) cursor fun result after =>
      (Clause.body role result.1 result.2).Runs cursor after := by
  rw [bodyWithin]
  apply peek_bind
  simp only
  split
  · apply ((before.scope role cursor closed (by omega)).weaken fun _ _ inner => .braced inner).later
    exact fun _ _ misses => .inl misses.fails
  · rename_i found
    have listed : bodyStart ∈ expectations := by decide
    have missed : cursor.Faults (cursor.mismatch bodyStart) cursor :=
      .missed (.here _) listed fun same => absurd same (by decide)
    have told : cursor.mismatch bodyStart = ⟨.grammar, cursor.current.text,
        "mismatched input '" ++ cursor.current.text ++
          "' expecting a statement, declarations need an enclosing '\x7b'",
        cursor.current.span⟩ := by
      simp [Cursor.mismatch, found, bodyStart, String.append_assoc]
    exact .inl (told ▸ missed).fails
  · rename_i other _
    apply fresh_scope_bind
    apply bind ((before.statement cursor.numbered closed enough).later fun _ _ => .inr)
    intro stmt after inner
    exact pure (.single other inner)

theorem alternatives_succ (enough : 3 * cursor.ahead.length ≤ fuel) :
    Derives cursor.Fails (alternativesWithin (fuel + 1)) cursor fun rest after =>
      (Clause.alternatives rest).Runs cursor after := by
  rw [alternativesWithin]
  apply peek_bind
  refine accept (fun word => ?_) fun _ => pure .done
  have begun : cursor.Advances cursor.step := .single (word ▸ by decide)
  have body (role : ScopeRole) {after : Cursor} (front : cursor.Advances after) :
      Derives cursor.Fails (bodyWithin fuel role) after fun result last =>
        (Clause.body role result.1 result.2).Runs after last := by
    have fewer := front.length_lt closed
    exact (before.body role after (front.passes.closed closed) (by omega)).later
      (Cursor.Stalls.later front)
  refine accept (fun again => ?_) fun _ => ?_
  · have further := begun.passes.step (again ▸ by decide)
    apply bind ((condition (further.closed closed)).later (Cursor.Fails.faulty further.begun))
    intro value first test
    have front := (begun.trans (.token (again ▸ by decide) (.here _))).trans test.passes
    apply bind (body .elseIfBody front)
    intro ⟨info, stmts⟩ second inner
    apply span_from_bind
    have behind := front.passes.begun.trans (.part inner .here)
    have fewer := front.length_lt closed
    have less := inner.length_le
    apply bind ((before.alternatives second (behind.closed closed) (by omega)).later
      (Cursor.Fails.later behind))
    intro rest after others
    exact pure (.elseIf word again test inner others)
  · apply bind (body .elseBody begun)
    intro ⟨info, stmts⟩ after inner
    exact span_from_bind (pure (.otherwise word inner))

theorem statement_succ (enough : 3 * cursor.ahead.length ≤ fuel) :
    Derives cursor.Fails (statementWithin (fuel + 1)) cursor fun stmt after =>
      (Clause.statement stmt).Runs cursor after := by
  have plain {reader : Parser Stmt} (derives : Derives cursor.Faults reader cursor fun stmt after =>
      (Phrase.statement stmt).Runs cursor after) :
      Derives cursor.Fails reader cursor fun stmt after => (Clause.statement stmt).Runs cursor after :=
    (derives.later fun _ _ faults => faults.fails).weaken fun _ _ inner => .plain inner
  have first {kind : TokenKind} (found : cursor.kind = kind) (plain : kind.Plain) :
      cursor.Advances cursor.step := .single (found ▸ plain)
  have body (role : ScopeRole) {after : Cursor} (front : cursor.Advances after) :
      Derives cursor.Fails (bodyWithin fuel role) after fun result last =>
        (Clause.body role result.1 result.2).Runs after last := by
    have fewer := front.length_lt closed
    exact (before.body role after (front.passes.closed closed) (by omega)).later
      (Cursor.Stalls.later front)
  rw [statementWithin]
  apply peek_bind
  split
  case h_1 =>
    apply bind ((before.scope .block cursor closed enough).later fun _ _ => Cursor.Misses.fails)
    intro ⟨info, body⟩ after inner
    exact pure (.block inner)
  case h_2 =>
    apply plain
    apply bind (variable_declaration closed)
    intro ⟨span, decl⟩ after inner
    exact pure (.declare inner)
  case h_3 word =>
    have begun := first word (by decide)
    apply next_bind
    apply bind ((condition (begun.passes.closed closed)).later
      (Cursor.Fails.faulty begun.passes.begun))
    intro value second test
    have front := begun.trans test.passes
    apply bind (body .ifBody front)
    intro ⟨info, stmts⟩ third inner
    apply span_from_bind
    have behind := front.passes.begun.trans (.part inner .here)
    have fewer := front.length_lt closed
    have less := inner.length_le
    apply bind ((before.alternatives third (behind.closed closed) (by omega)).later
      (Cursor.Fails.later behind))
    intro rest after others
    exact span_from_bind (pure (.branch word test inner others))
  case h_4 word =>
    have begun := first word (by decide)
    apply next_bind
    apply bind ((condition (begun.passes.closed closed)).later
      (Cursor.Fails.faulty begun.passes.begun))
    intro value second test
    apply bind (body .whileLoop (begun.trans test.passes))
    intro ⟨info, stmts⟩ after inner
    exact span_from_bind (pure (.whileLoop word test inner))
  case h_5 word =>
    have begun := first word (by decide)
    apply next_bind
    apply bind (body .doLoop begun)
    intro ⟨info, stmts⟩ second inner
    have behind := begun.passes.begun.trans (.part inner .here)
    refine expect (Cursor.Fails.faulty behind) (by decide) fun again => ?_
    have further := behind.trans (Cursor.Passes.begun (.token (again ▸ by decide) (.here _)))
    apply bind ((condition (further.closed closed)).later (Cursor.Fails.faulty further))
    intro value third test
    refine expect (Cursor.Fails.faulty (further.trans test.passes.begun)) (by decide) fun ends => ?_
    exact span_from_bind (pure (.doLoop word inner again test ends))
  case h_6 word =>
    have begun := first word (by decide)
    apply next_bind
    apply bind ((loop_clauses (begun.passes.closed closed)).later
      (Cursor.Fails.faulty begun.passes.begun))
    intro clauses second inner
    apply bind (body .forLoop (begun.trans inner.passes))
    intro ⟨info, stmts⟩ after whole
    exact span_from_bind (pure (.forLoop word inner whole))
  case h_7 word => exact plain (return_statement word closed)
  case h_8 word =>
    exact plain (named_statement (fun span name => .jump { span } name none) (word ▸ by decide)
      fun name ends => .jump word name ends)
  case h_9 word =>
    exact plain (named_statement (fun span name => .label { span } name) (word ▸ by decide)
      fun name ends => .label word name ends)
  case h_10 word => exact plain (state_change_statement word)
  case h_11 word => exact plain (next_bind (pure (.empty word)))
  case h_12 => exact plain (expression_statement closed)

end

theorem statements (fuel : Nat) : Statements fuel := by
  -- Without steps left only a scope can be called for, and then no brace is ahead to open it.
  induction fuel with
  | zero =>
      refine ⟨fun _ _ enough => by omega, fun role cursor closed enough => ?_,
        fun _ _ enough => by omega, fun _ _ _ enough => by omega, fun _ _ enough => by omega⟩
      have none : cursor.ahead = [] := List.eq_nil_of_length_eq_zero (by omega)
      exact .unopened (by simp [Cursor.kind, Cursor.current, none, closed])
  | succ fuel before =>
      exact ⟨fun _ closed enough => statement_succ before closed (by omega),
        fun role _ closed enough => scope_succ before closed role (by omega),
        fun _ closed enough => statements_succ before closed (by omega),
        fun role _ closed enough => body_succ before closed role (by omega),
        fun _ closed enough => alternatives_succ before closed (by omega)⟩

theorem statement (closed : cursor.close.kind = .endOfFile) :
    Derives cursor.Fails Parser.statement cursor fun stmt after =>
      (Clause.statement stmt).Runs cursor after :=
  peek_bind ((statements _).statement cursor closed (by rw [Cursor.budget]; omega))

theorem scope (role : ScopeRole) (closed : cursor.close.kind = .endOfFile) :
    Derives cursor.Misses (Parser.scope role) cursor fun result after =>
      (Clause.scope role result.1 result.2).Runs cursor after :=
  peek_bind ((statements _).scope role cursor closed (by rw [Cursor.budget]; omega))

end Parser.Derives

end Lsl
