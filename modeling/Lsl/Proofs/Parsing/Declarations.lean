import Lsl.Parsing.Script
import Lsl.Proofs.Parsing.Clauses

/-!
What is read of declarations, from parameters up to one turn of a script. Each reader has one
relation, which says between which cursors its result is written, and one lemma, by which the reader
gives what is related. A turn never fails.
-/

set_option autoImplicit false

namespace Lsl

/-- Parameters with commas between them. -/
inductive ParameterDecl.Runs : List ParameterDecl → Cursor → Cursor → Prop
  | last {type : ValueType} {cursor : Cursor} (word : cursor.kind = .type)
      (named : ValueType.ofKeyword? cursor.current.text = some type)
      (name : cursor.step.kind = .identifier) :
      Runs [⟨cursor.step.step.spanFrom cursor.start, cursor.step.current.text, type, false⟩] cursor
        cursor.step.step
  | more {type : ValueType} {rest : List ParameterDecl} {cursor after : Cursor}
      (word : cursor.kind = .type) (named : ValueType.ofKeyword? cursor.current.text = some type)
      (name : cursor.step.kind = .identifier) (comma : cursor.step.step.kind = .comma)
      (others : Runs rest cursor.step.step.step after) :
      Runs (⟨cursor.step.step.spanFrom cursor.start, cursor.step.current.text, type, false⟩ :: rest)
        cursor after

inductive ParameterList.Runs : ParameterList → Cursor → Cursor → Prop
  | nothing {cursor : Cursor} (opens : cursor.kind = .openParen)
      (closes : cursor.step.kind = .closeParen) :
      Runs ⟨cursor.step.step.spanFrom cursor.start, []⟩ cursor cursor.step.step
  | listed {members : List ParameterDecl} {cursor last : Cursor} (opens : cursor.kind = .openParen)
      (inner : ParameterDecl.Runs members cursor.step last) (closes : last.kind = .closeParen) :
      Runs ⟨last.step.spanFrom cursor.start, members⟩ cursor last.step

/-- A name, parameters and a body. -/
inductive Cursor.Bodied (role : ScopeRole) :
    String → ParameterList → ScopeInfo → List Stmt → Cursor → Cursor → Prop
  | intro {parameters : ParameterList} {info : ScopeInfo} {body : List Stmt}
      {cursor opened after : Cursor} (name : cursor.kind = .identifier)
      (list : parameters.Runs cursor.step opened)
      (inner : (Clause.scope role info body).Runs opened after) :
      Bodied role cursor.current.text parameters info body cursor after

inductive FunctionDecl.Runs : FunctionDecl → Cursor → Cursor → Prop
  | typed {returns : ValueType} {name : String} {parameters : ParameterList} {scope : ScopeInfo}
      {body : List Stmt} {cursor after : Cursor} (word : cursor.kind = .type)
      (named : ValueType.ofKeyword? cursor.current.text = some returns)
      (inner : Cursor.Bodied .function name parameters scope body cursor.step after) :
      Runs { span := after.spanFrom cursor.start, name, returns, parameters, scope, body } cursor
        after
  | untyped {name : String} {parameters : ParameterList} {scope : ScopeInfo} {body : List Stmt}
      {cursor after : Cursor}
      (inner : Cursor.Bodied .function name parameters scope body cursor after) :
      Runs { span := after.spanFrom cursor.start, name, returns := .void, parameters, scope, body }
        cursor after

inductive HandlerDecl.Runs : HandlerDecl → Cursor → Cursor → Prop
  | intro {name : String} {parameters : ParameterList} {scope : ScopeInfo} {body : List Stmt}
      {cursor after : Cursor}
      (inner : Cursor.Bodied .handler name parameters scope body cursor after) :
      Runs { span := after.spanFrom cursor.start, name, parameters, scope, body } cursor after

/-- A handler, or what is skipped for one. -/
inductive StateMember.Runs : StateMember → Cursor → Cursor → Prop
  | handler {decl : HandlerDecl} {cursor after : Cursor} (inner : decl.Runs cursor after) :
      Runs (.handler decl) cursor after
  | broken {error : SyntaxError} {cursor failed : Cursor} (inside : cursor.kind ≠ .closeCurly)
      (goes : cursor.kind ≠ .endOfFile) (fails : cursor.Fails error failed) :
      Runs (.broken ((failed.abandoned (Parser.handlerSkip 0 false) error).brokenSpan cursor.start))
        cursor (failed.abandoned (Parser.handlerSkip 0 false) error)

inductive StateMember.ListRuns : List StateMember → Cursor → Cursor → Prop
  | ended {cursor : Cursor} (ends : cursor.kind = .closeCurly ∨ cursor.kind = .endOfFile) :
      ListRuns [] cursor cursor
  | followed {member : StateMember} {rest : List StateMember} {cursor middle after : Cursor}
      (inner : member.Runs cursor middle) (others : ListRuns rest middle after) :
      ListRuns (member :: rest) cursor after

/-- The name of a state, and whether it is the default state. -/
inductive StateDecl.Heads : String → Bool → Cursor → Cursor → Prop
  | default {cursor : Cursor} (word : cursor.kind = .defaultWord) :
      Heads "default" true cursor cursor.step
  | named {cursor : Cursor} (word : cursor.kind = .stateWord)
      (name : cursor.step.kind = .identifier) :
      Heads cursor.step.current.text false cursor cursor.step.step

inductive StateDecl.Runs : StateDecl → Cursor → Cursor → Prop
  | intro {name : String} {isDefault : Bool} {members : List StateMember}
      {cursor opened last : Cursor} (head : StateDecl.Heads name isDefault cursor opened)
      (opens : opened.kind = .openCurly) (inner : StateMember.ListRuns members opened.step last)
      (closes : last.kind = .closeCurly) :
      Runs { span := last.step.spanFrom cursor.start, name, isDefault, members } cursor last.step

/-- The script is extended by a declaration. A state in front of the default state is reported. -/
inductive Script.Extends (script : Script) : Script → Cursor → Cursor → Prop
  | function {decl : FunctionDecl} {cursor after : Cursor} (vacant : script.defaultState = none)
      (other : cursor.kind ≠ .stateWord) (inner : decl.Runs cursor after) :
      Extends script { script with functions := script.functions ++ [decl] } cursor after
  | global {span : Span} {decl : Variable} {cursor after : Cursor}
      (vacant : script.defaultState = none) (inner : (Phrase.declaration span decl).Runs cursor after) :
      Extends script { script with globals := script.globals ++ [{ span, decl }] } cursor after
  | default {decl : StateDecl} {cursor after : Cursor} (vacant : script.defaultState = none)
      (word : cursor.kind = .defaultWord) (inner : decl.Runs cursor after) :
      Extends script { script with defaultState := some decl } cursor after
  | early {decl : StateDecl} {cursor after : Cursor} (vacant : script.defaultState = none)
      (word : cursor.kind = .stateWord)
      (inner : decl.Runs (cursor.reported (cursor.mismatch Parser.topLevelStart)) after) :
      Extends script { script with states := script.states ++ [decl] } cursor after
  | state {decl : StateDecl} {cursor after : Cursor} (taken : script.defaultState.isSome = true)
      (inner : decl.Runs cursor after) :
      Extends script { script with states := script.states ++ [decl] } cursor after

/-- Reading a declaration fails in a statement or in front of one, or a state is not closed before
the script ends. -/
inductive Cursor.Breaks (cursor : Cursor) : SyntaxError → Cursor → Prop
  | inside {error : SyntaxError} {failed : Cursor} (fails : cursor.Fails error failed) :
      Breaks cursor error failed
  | unclosed {members : List StateMember} {opened last : Cursor} (passed : cursor.Passes opened)
      (opens : opened.kind = .openCurly) (inner : StateMember.ListRuns members opened.step last)
      (ends : last.kind = .endOfFile) :
      Breaks cursor (last.mismatch TokenKind.closeCurly.grammarName) last

/-- A declaration cannot be read where one is looked for. -/
inductive Script.Undone (script : Script) (cursor : Cursor) : SyntaxError → Cursor → Prop
  | plain {error : SyntaxError} {failed : Cursor} (breaks : cursor.Breaks error failed) :
      Undone script cursor error failed
  | early {error : SyntaxError} {failed : Cursor} (vacant : script.defaultState = none)
      (word : cursor.kind = .stateWord)
      (breaks : (cursor.reported (cursor.mismatch Parser.topLevelStart)).Breaks error failed) :
      Undone script cursor error failed

/-- One turn extends the script or leaves a broken part in it. -/
inductive Script.Turns (script : Script) : Script → Cursor → Cursor → Prop
  | extended {grown : Script} {cursor after : Cursor} (inner : script.Extends grown cursor after) :
      Turns script grown cursor after
  | broken {error : SyntaxError} {cursor failed : Cursor} (goes : cursor.kind ≠ .endOfFile)
      (undone : script.Undone cursor error failed) :
      Turns script
        { script with broken := script.broken ++
          [⟨(failed.abandoned (Parser.topLevelSkip 0 false) error).brokenSpan cursor.start,
            if script.defaultState.isSome then .state else .globalDeclaration⟩] }
        cursor (failed.abandoned (Parser.topLevelSkip 0 false) error)

section Moving

variable {cursor after : Cursor}

theorem ParameterDecl.Runs.passes {members : List ParameterDecl}
    (runs : ParameterDecl.Runs members cursor after) : cursor.Passes after := by
  have first {place last : Cursor} (word : place.kind = .type)
      (name : place.step.kind = .identifier) (rest : place.step.step.Passes last) :
      place.Passes last :=
    .token (word ▸ by decide) (.token (name ▸ by decide) rest)
  induction runs with
  | last word _ name => exact first word name (.here _)
  | more word _ name comma _ rest => exact first word name (.token (comma ▸ by decide) rest)

theorem ParameterList.Runs.passes {parameters : ParameterList}
    (runs : parameters.Runs cursor after) : cursor.Passes after := by
  cases runs with
  | nothing opens closes =>
      exact .token (opens ▸ by decide) (.token (closes ▸ by decide) (.here _))
  | listed opens inner closes =>
      exact .token (opens ▸ by decide) (inner.passes.step (closes ▸ by decide))

theorem StateDecl.Heads.passes {name : String} {isDefault : Bool}
    (heads : StateDecl.Heads name isDefault cursor after) : cursor.Advances after := by
  cases heads with
  | default word => exact .single (word ▸ by decide)
  | named word name => exact ⟨word ▸ by decide, .token (name ▸ by decide) (.here _)⟩

end Moving

section Carrying

variable {relation : Cursor → Cursor → Prop} (carries : Cursor.Carries relation)
  {cursor after : Cursor}

include carries

theorem Cursor.Bodied.carried {role : ScopeRole} {name : String} {parameters : ParameterList}
    {info : ScopeInfo} {body : List Stmt}
    (bodied : Cursor.Bodied role name parameters info body cursor after) :
    relation cursor.step after := by
  cases bodied with
  | intro _ list inner => exact carries.trans (list.passes.carried carries) (inner.carried carries).1

theorem FunctionDecl.Runs.carried {decl : FunctionDecl} (runs : decl.Runs cursor after) :
    relation cursor.step after := by
  cases runs with
  | typed _ _ inner => exact carries.trans (carries.step _) (inner.carried carries)
  | untyped inner => exact inner.carried carries

theorem HandlerDecl.Runs.carried {decl : HandlerDecl} (runs : decl.Runs cursor after) :
    relation cursor.step after := by
  cases runs with
  | intro inner => exact inner.carried carries

theorem StateMember.Runs.carried {member : StateMember} (runs : member.Runs cursor after) :
    relation cursor after := by
  cases runs with
  | handler inner => exact carries.trans (carries.step _) (inner.carried carries)
  | broken _ _ fails =>
      obtain ⟨reached, raises⟩ := Clause.Runs.carried carries fails
      exact Cursor.abandoned_carried carries reached (raises _ rfl)

theorem StateMember.ListRuns.carried {members : List StateMember}
    (runs : StateMember.ListRuns members cursor after) : relation cursor after := by
  induction runs with
  | ended => exact carries.refl _
  | followed inner _ rest => exact carries.trans (inner.carried carries) rest

theorem StateDecl.Runs.carried {decl : StateDecl} (runs : decl.Runs cursor after) :
    relation cursor.step after := by
  cases runs with
  | intro head _ inner _ =>
      have inside := carries.trans (carries.step _)
        (carries.trans (inner.carried carries) (carries.step _))
      exact carries.trans (head.passes.2.carried carries) inside

theorem Cursor.Breaks.carried {error : SyntaxError} (breaks : cursor.Breaks error after) :
    relation cursor after ∧ Cursor.Raises relation cursor error := by
  cases breaks with
  | inside fails =>
      obtain ⟨reached, raises⟩ := Clause.Runs.carried carries fails
      exact ⟨reached, raises _ rfl⟩
  | unclosed passed _ inner _ =>
      have whole := carries.trans (passed.carried carries)
        (carries.trans (carries.step _) (inner.carried carries))
      exact ⟨whole, .missed whole (by decide) fun other => absurd other (by decide)⟩

/-- A state in front of the default state is reported where it stands. -/
theorem Cursor.early_carried :
    relation cursor (cursor.reported (cursor.mismatch Parser.topLevelStart)) :=
  carries.reported (carries.refl cursor)
    (.missed (carries.refl cursor) (by decide) fun other => absurd other (by decide))

theorem Script.Undone.carried {script : Script} {error : SyntaxError}
    (undone : script.Undone cursor error after) :
    relation cursor after ∧ Cursor.Raises relation cursor error := by
  cases undone with
  | plain breaks => exact breaks.carried carries
  | early _ _ breaks =>
      obtain ⟨reached, raises⟩ := breaks.carried carries
      exact ⟨carries.trans (Cursor.early_carried carries) reached,
        raises.later carries (Cursor.early_carried carries)⟩

theorem Script.Turns.carried {script grown : Script} (turns : script.Turns grown cursor after) :
    relation cursor after := by
  have behind {place last : Cursor} (rest : relation place.step last) : relation place last :=
    carries.trans (carries.step place) rest
  cases turns with
  | extended inner =>
      cases inner with
      | function _ _ inner => exact behind (inner.carried carries)
      | global _ inner => exact inner.passes.carried carries
      | default _ _ inner => exact behind (inner.carried carries)
      | early _ _ inner =>
          exact carries.trans (Cursor.early_carried carries) (behind (inner.carried carries))
      | state _ inner => exact behind (inner.carried carries)
  | broken _ undone =>
      obtain ⟨reached, raises⟩ := undone.carried carries
      exact Cursor.abandoned_carried carries reached raises

end Carrying

section Shortening

variable {cursor after : Cursor} (closed : cursor.close.kind = .endOfFile)

include closed

/-- A token is stepped over, and what comes behind it. -/
theorem Cursor.shorter_of_step {kind : TokenKind} (found : cursor.kind = kind)
    (goes : kind ≠ .endOfFile) (reaches : cursor.step.Reaches after) :
    after.ahead.length < cursor.ahead.length :=
  Nat.lt_of_le_of_lt reaches.ahead.length_le (length_step_lt closed (found ▸ goes))

theorem HandlerDecl.Runs.shorter {decl : HandlerDecl} (runs : decl.Runs cursor after) :
    after.ahead.length < cursor.ahead.length := by
  have onward := runs.carried .reaches
  cases runs with
  | intro inner =>
      cases inner with
      | intro name _ _ => exact Cursor.shorter_of_step closed name (by decide) onward

theorem StateMember.Runs.shorter {member : StateMember} (runs : member.Runs cursor after) :
    after.ahead.length < cursor.ahead.length := by
  cases runs with
  | handler inner => exact inner.shorter closed
  | broken inside goes fails =>
      exact Cursor.abandoned_shorter fails.reaches closed goes
        (fun _ rest same => Parser.handler_skip_pos rest (same ▸ inside)) _

theorem FunctionDecl.Runs.shorter {decl : FunctionDecl} (runs : decl.Runs cursor after) :
    after.ahead.length < cursor.ahead.length := by
  have onward := runs.carried .reaches
  cases runs with
  | typed word _ _ => exact Cursor.shorter_of_step closed word (by decide) onward
  | untyped inner =>
      cases inner with
      | intro name _ _ => exact Cursor.shorter_of_step closed name (by decide) onward

theorem StateDecl.Runs.shorter {decl : StateDecl} (runs : decl.Runs cursor after) :
    after.ahead.length < cursor.ahead.length := by
  have onward := runs.carried .reaches
  cases runs with
  | intro head _ _ _ =>
      exact Nat.lt_of_le_of_lt onward.ahead.length_le
        (Cursor.length_step_lt closed head.passes.1.2.2)

/-- Every turn steps over a token. -/
theorem Script.Turns.shorter {script grown : Script} (turns : script.Turns grown cursor after) :
    after.ahead.length < cursor.ahead.length := by
  cases turns with
  | extended inner =>
      cases inner with
      | function _ _ inner => exact inner.shorter closed
      | global _ inner => exact Cursor.Advances.length_lt closed inner.moves
      | default _ _ inner => exact inner.shorter closed
      | early _ _ inner =>
          have noted : (cursor.reported (cursor.mismatch Parser.topLevelStart)).close.kind =
              .endOfFile := closed
          have shorter := inner.shorter noted
          exact shorter
      | state _ inner => exact inner.shorter closed
  | broken goes undone =>
      exact Cursor.abandoned_shorter (undone.carried .reaches).1 closed goes
        (fun token rest _ => Parser.top_level_skip_pos token rest) _

end Shortening

theorem StateMember.ListRuns.stops {members : List StateMember} {cursor after : Cursor}
    (runs : StateMember.ListRuns members cursor after) :
    after.kind = .closeCurly ∨ after.kind = .endOfFile := by
  induction runs with
  | ended ends => exact ends
  | followed _ _ rest => exact rest

namespace Parser.Derives

variable {cursor : Cursor}

theorem parameters_within (fuel : Nat) (closed : cursor.close.kind = .endOfFile)
    (enough : cursor.ahead.length < fuel) :
    Derives cursor.Faults (Parser.parametersWithin fuel) cursor fun members after =>
      ParameterDecl.Runs members cursor after := by
  induction fuel generalizing cursor with
  | zero => omega
  | succ fuel induction =>
      rw [Parser.parametersWithin]
      unfold Parser.parameter
      simp only [bind_assoc, pure_bind]
      apply peek_bind
      refine type (Cursor.Passes.here _).faults fun type word named => ?_
      have first : cursor.Passes cursor.step := .token (word ▸ by decide) (.here _)
      refine expect first.faults (by decide) fun name => ?_
      have second := first.step (name ▸ by decide)
      apply span_from_bind
      refine accept (fun comma => ?_) fun _ => pure (.last word named name)
      have third := second.step (comma ▸ by decide)
      have fewer := Cursor.length_step_lt closed (word ▸ by decide)
      have shorter : cursor.step.step.step.ahead.length ≤ cursor.step.ahead.length :=
        ((Cursor.reaches_step _).trans (Cursor.reaches_step _)).ahead.length_le
      apply bind ((induction (third.closed closed) (by omega)).later third.faults)
      intro rest after others
      exact pure (.more word named name comma others)

theorem parameter_list (closed : cursor.close.kind = .endOfFile) :
    Derives cursor.Faults Parser.parameterList cursor fun parameters after =>
      parameters.Runs cursor after := by
  unfold Parser.parameterList
  refine expect (Cursor.Passes.here _).faults (by decide) fun opens => ?_
  have begun : cursor.Passes cursor.step := .token (opens ▸ by decide) (.here _)
  apply peek_bind
  dsimp only
  split
  · rename_i closes
    refine expect_or begun.faults (by decide) (by decide) fun _ => ?_
    exact span_from_bind (pure (.nothing opens closes))
  · have inside := parameters_within cursor.step.budget (begun.closed closed)
      (by rw [Cursor.budget]; omega)
    apply bind (inside.later begun.faults)
    intro members last inner
    refine expect_or (begun.trans inner.passes).faults (by decide) (by decide) fun closes => ?_
    exact span_from_bind (pure (.listed opens inner closes))

theorem bodied {α : Type} {role : ScopeRole} {start : Position}
    {build : Token → ParameterList → ScopeInfo × List Stmt → Span → α}
    (closed : cursor.close.kind = .endOfFile) :
    Derives cursor.Fails (do
      let name ← Parser.expect .identifier
      let parameters ← Parser.parameterList
      let result ← Parser.scope role
      return build name parameters result (← Parser.spanFrom start)) cursor fun value after =>
        ∃ parameters info body, value = build cursor.current parameters (info, body)
          (after.spanFrom start) ∧
            Cursor.Bodied role cursor.current.text parameters info body cursor after := by
  refine expect (Cursor.Fails.faulty .here) (by decide) fun name => ?_
  have begun : cursor.Passes cursor.step := .token (name ▸ by decide) (.here _)
  apply bind ((parameter_list (begun.closed closed)).later (Cursor.Fails.faulty begun.begun))
  intro parameters opened list
  have front := begun.trans list.passes
  have later (error : SyntaxError) (after : Cursor) (misses : opened.Misses error after) :
      cursor.Fails error after :=
    Cursor.Fails.later front.begun error after misses.fails
  apply bind ((scope role (front.closed closed)).later later)
  intro ⟨info, body⟩ after inner
  exact span_from_bind (pure ⟨parameters, info, body, rfl, .intro name list inner⟩)

theorem function_decl (closed : cursor.close.kind = .endOfFile) :
    Derives cursor.Fails Parser.functionDecl cursor fun decl after => decl.Runs cursor after := by
  unfold Parser.functionDecl
  apply peek_bind
  dsimp only
  split
  · refine type (Cursor.Fails.faulty .here) fun returns word named => ?_
    have begun : cursor.Passes cursor.step := .token (word ▸ by decide) (.here _)
    apply weaken ((bodied (begun.closed closed)).later (Cursor.Fails.later begun.begun))
    intro decl after built
    obtain ⟨parameters, info, body, rfl, inner⟩ := built
    exact .typed word named inner
  · apply weaken (bodied closed)
    intro decl after built
    obtain ⟨parameters, info, body, rfl, inner⟩ := built
    exact .untyped inner

theorem handler_decl (closed : cursor.close.kind = .endOfFile) :
    Derives cursor.Fails Parser.handlerDecl cursor fun decl after => decl.Runs cursor after := by
  unfold Parser.handlerDecl
  apply peek_bind
  apply weaken (bodied closed)
  intro decl after built
  obtain ⟨parameters, info, body, rfl, inner⟩ := built
  exact .intro inner

theorem handler_turn (closed : cursor.close.kind = .endOfFile) (inside : cursor.kind ≠ .closeCurly)
    (goes : cursor.kind ≠ .endOfFile) :
    Derives (fun _ _ => False) (Parser.recovering (.handler <$> Parser.handlerDecl)
      (Parser.breakHandler cursor.start)) cursor fun member after => member.Runs cursor after := by
  have handler : Derives cursor.Fails (StateMember.handler <$> Parser.handlerDecl) cursor
      fun member after => member.Runs cursor after := by
    rw [map_eq_pure_bind]
    exact bind (handler_decl closed) fun decl after inner => pure (.handler inner)
  apply recovering handler fun _ _ inner => inner
  intro error failed fails
  exact StateMember.Runs.broken inside goes fails

theorem state_members_within (fuel : Nat) (closed : cursor.close.kind = .endOfFile)
    (enough : cursor.ahead.length < fuel) :
    Derives (fun _ _ => False) (Parser.stateMembersWithin fuel) cursor fun members after =>
      StateMember.ListRuns members cursor after := by
  induction fuel generalizing cursor with
  | zero => omega
  | succ fuel induction =>
      rw [Parser.stateMembersWithin]
      apply peek_bind
      split
      · rename_i ends
        exact pure (.ended ends)
      · rename_i inside
        rw [not_or] at inside
        apply bind (handler_turn closed inside.1 inside.2)
        intro member middle inner
        have shorter := inner.shorter closed
        have reaches := inner.carried .reaches
        apply bind (induction (reaches.closed closed) (by omega))
        intro rest after others
        exact pure (.followed inner others)

theorem state_head :
    Derives cursor.Faults Parser.stateHead cursor fun head after =>
      StateDecl.Heads head.1 head.2 cursor after := by
  unfold Parser.stateHead
  refine accept (fun word => pure (.default word)) fun _ => ?_
  refine expect (Cursor.Passes.here _).faults (by decide) fun word => ?_
  have begun : cursor.Passes cursor.step := .token (word ▸ by decide) (.here _)
  exact expect begun.faults (by decide) fun name => pure (.named word name)

theorem state_decl (closed : cursor.close.kind = .endOfFile) :
    Derives cursor.Breaks Parser.stateDecl cursor fun decl after => decl.Runs cursor after := by
  have faulty {place : Cursor} (passed : cursor.Passes place) (error : SyntaxError)
      (after : Cursor) (faults : place.Faults error after) : cursor.Breaks error after :=
    .inside (faults.later passed).fails
  unfold Parser.stateDecl
  apply peek_bind
  apply bind (state_head.later (faulty (.here _)))
  intro ⟨name, isDefault⟩ opened head
  have front := head.passes.passes
  refine expect (faulty front) (by decide) fun opens => ?_
  have shut := opened.reaches_step.closed (front.closed closed)
  apply peek_bind
  have enough : opened.step.ahead.length < opened.step.budget := by
    rw [Cursor.budget]
    omega
  apply bind ((state_members_within _ shut enough).later fun _ _ => False.elim)
  intro members last inner
  refine expect_or_else (fun closes => ?_) fun open_ => ?_
  · exact span_from_bind (pure (.intro head opens inner closes))
  · exact .unclosed front opens inner (inner.stops.resolve_left open_)

theorem global_decl (closed : cursor.close.kind = .endOfFile) :
    Derives cursor.Faults Parser.globalDecl cursor fun global after =>
      ∃ span decl, global = { span, decl } ∧ (Phrase.declaration span decl).Runs cursor after := by
  unfold Parser.globalDecl
  apply bind (variable_declaration closed)
  intro ⟨span, decl⟩ after inner
  exact pure ⟨span, decl, rfl, inner⟩

theorem declaration (script : Script) (closed : cursor.close.kind = .endOfFile) :
    Derives (script.Undone cursor) (Parser.declaration script) cursor fun grown after =>
      script.Extends grown cursor after := by
  have faulty (error : SyntaxError) (after : Cursor) (faults : cursor.Faults error after) :
      script.Undone cursor error after :=
    .plain (.inside faults.fails)
  have function (vacant : script.defaultState = none) (other : cursor.kind ≠ .stateWord) :
      Derives (script.Undone cursor)
        (do return { script with functions := script.functions ++ [← Parser.functionDecl] }) cursor
        fun grown after => script.Extends grown cursor after := by
    apply bind ((function_decl closed).later fun _ _ fails => .plain (.inside fails))
    intro decl after inner
    exact pure (.function vacant other inner)
  unfold Parser.declaration
  apply peek_bind
  split
  · rename_i taken
    apply bind ((state_decl closed).later fun _ _ => .plain)
    intro decl after inner
    exact pure (.state taken inner)
  · exact mismatched faulty (by decide) (by decide)
  · rename_i word none
    have vacant : script.defaultState = .none := by simpa using none
    have noted : (cursor.reported (cursor.mismatch topLevelStart)).close.kind = .endOfFile := closed
    apply report_bind
    apply bind ((state_decl noted).later fun _ _ => .early vacant word)
    intro decl after inner
    exact pure (.early vacant word inner)
  · rename_i word none
    apply bind ((state_decl closed).later fun _ _ => .plain)
    intro decl after inner
    exact pure (.default (by simpa using none) word inner)
  · rename_i word none
    have vacant : script.defaultState = .none := by simpa using none
    split
    · exact function vacant (by simp [word])
    · apply bind ((global_decl closed).later faulty)
      intro global after found
      obtain ⟨span, decl, rfl, inner⟩ := found
      exact pure (.global vacant inner)
  · rename_i word none
    split
    · exact function (by simpa using none) (by simp [word])
    · exact mismatched faulty (by decide) (by decide)
  · exact mismatched faulty (by decide) (by decide)

/-- Where a declaration cannot be read, a broken part is left. -/
theorem turn (script : Script) (closed : cursor.close.kind = .endOfFile)
    (goes : cursor.kind ≠ .endOfFile) :
    Derives (fun _ _ => False) (Parser.recovering (Parser.declaration script)
      (Parser.breakDeclaration script cursor.start)) cursor fun grown after =>
        script.Turns grown cursor after := by
  apply recovering (declaration script closed) fun _ _ inner => .extended inner
  intro error failed undone
  exact Script.Turns.broken goes undone

end Parser.Derives

end Lsl
