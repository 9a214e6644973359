import Lsl.Proofs.Checking.Spelling
import Lsl.Proofs.Parsing.Turns

/-!
Reading a script stays in step with its braces. What is read, skipped or given up between a pair of
braces reaches up to the closing one, and no further: a body that starts at an opening brace ends
right behind the closing one, and so do functions, handlers and states. Between two declarations no
brace is open.
-/

set_option autoImplicit false

namespace Lsl

namespace Cursor

variable {cursor middle failed after : Cursor}

theorem levels_abandoned {skip : List Token → Nat} {error : SyntaxError}
    (even : Balanced (cursor.ahead.take (skip cursor.ahead))) :
    cursor.Levels (cursor.abandoned skip error) where
  taken := by
    have skipped : (cursor.reported error).Levels (cursor.abandoned skip error) := levels_skip even
    exact skipped.taken
  close := (reaches_abandoned cursor skip error).close

/-- Where the braces that are open are closed further on, those in between are too. -/
def Keeps (cursor after : Cursor) : Prop := cursor.Nested → cursor.Levels after

namespace Keeps

theorem refl (cursor : Cursor) : cursor.Keeps cursor := fun _ => .refl cursor

theorem trans (front : cursor.Keeps middle) (back : middle.Keeps after) : cursor.Keeps after :=
  fun nested => (front nested).trans (back (nested.after (front nested)))

theorem step (plain : cursor.kind.Plain) : cursor.Keeps cursor.step := by
  intro nested
  obtain ⟨token, rest, ahead, same⟩ := ahead_of_kind nested.closed rfl plain.2.2
  refine ⟨⟨[token], ?_, .single (same ▸ plain.1) (same ▸ plain.2.1)⟩, cursor.close_step⟩
  rw [ahead_step ahead, ahead]
  rfl

theorem token {kind : TokenKind} (found : cursor.kind = kind) (plain : kind.Plain) :
    cursor.Keeps cursor.step :=
  step (found ▸ plain)

theorem passes (passed : cursor.Passes after) : cursor.Keeps after := by
  induction passed with
  | here => exact .refl _
  | token plain _ rest => exact (step plain).trans rest

theorem faults {error : SyntaxError} (faults : cursor.Faults error after) : cursor.Keeps after := by
  cases faults with
  | missed passed => exact passes passed
  | unnamed passed plain => exact passes (passed.step plain)
  | refused passed runs => exact (passes passed).trans (passes runs.passes)

theorem still (keeps : middle.Keeps after) (ahead : middle.ahead = cursor.ahead)
    (close : middle.close = cursor.close) : cursor.Keeps after := by
  intro nested
  have inside : middle.Nested := nested.after ⟨⟨[], ahead.symm, .nil⟩, close⟩
  have levels := keeps inside
  exact ⟨ahead ▸ levels.taken, levels.close.trans close⟩

theorem numbered (keeps : cursor.numbered.Keeps after) : cursor.Keeps after := keeps.still rfl rfl

/-- What is skipped behind a failure is balanced, if it is where the braces are closed. -/
theorem abandoned {skip : List Token → Nat} {error : SyntaxError} (front : cursor.Keeps failed)
    (even : ∀ depth tokens, depthAfter depth tokens = some 0 →
      Balanced (tokens.take (skip tokens))) :
    cursor.Keeps (failed.abandoned skip error) := by
  refine front.trans fun nested => ?_
  obtain ⟨depth, ends⟩ := nested.depth
  exact levels_abandoned (even depth failed.ahead ends)

theorem braces {last : Cursor} (inner : cursor.step.Keeps last) (opens : cursor.kind = .openCurly)
    (stops : last.kind = .closeCurly ∨ last.kind = .endOfFile) (nested : cursor.Nested) :
    last.kind = .closeCurly ∧ cursor.step.Leaves last.step ∧ cursor.Levels last.step := by
  have enclosed := nested.enclosed_step opens
  have levels := inner enclosed.nested
  obtain ⟨closes, leaves⟩ := enclosed.leaves levels stops
  have close := (last.close_step.trans levels.close).trans cursor.close_step
  exact ⟨closes, leaves, levels_of_leaves nested.closed opens leaves close⟩

end Keeps

end Cursor

namespace Clause.Runs

variable {clause : Clause} {cursor after : Cursor}

/-- What is read of statements keeps to the depth it starts from, also where reading fails. -/
theorem keeps (runs : clause.Runs cursor after) : cursor.Keeps after := by
  have phrase {phrase : Phrase} {place last : Cursor} (inner : phrase.Runs place last) :
      place.Keeps last := .passes inner.passes
  induction runs with
  | plain inner => exact phrase inner
  | block _ inner | braced _ inner | read _ inner => exact inner
  | branch word test _ _ inner others =>
      exact (Cursor.Keeps.token word (by decide)).trans ((phrase test).trans (inner.trans others))
  | whileLoop word test _ inner =>
      exact (Cursor.Keeps.token word (by decide)).trans ((phrase test).trans inner)
  | doLoop word _ again test ends inner =>
      have back := (phrase test).trans (.token ends (by decide))
      exact (Cursor.Keeps.token word (by decide)).trans
        (inner.trans ((Cursor.Keeps.token again (by decide)).trans back))
  | forLoop word clauses _ inner =>
      exact (Cursor.Keeps.token word (by decide)).trans ((phrase clauses).trans inner)
  | scope opens _ closes inner =>
      intro nested
      exact (inner.numbered.braces opens (.inl closes) nested).2.2
  | ended | done | here => exact .refl _
  | followed _ _ _ _ inner others => exact inner.trans others
  | broken _ _ _ inner =>
      exact inner.abandoned fun depth tokens closed =>
        Parser.statement_skip_depth ((Nat.zero_add depth).symm ▸ closed)
  | single _ _ inner => exact inner.numbered
  | elseIf word again test _ _ inner others =>
      have back := (phrase test).trans (inner.trans others)
      exact (Cursor.Keeps.token word (by decide)).trans
        ((Cursor.Keeps.token again (by decide)).trans back)
  | otherwise word _ inner => exact (Cursor.Keeps.token word (by decide)).trans inner
  | passed front _ rest => exact (Cursor.Keeps.passes front).trans rest
  | numbered front _ rest => exact (Cursor.Keeps.passes front.passes).trans rest.numbered
  | part _ _ inner rest => exact inner.trans rest
  | fault _ faults front => exact front.trans (.faults faults)
  | unclosed _ opens _ ends front inner =>
      intro nested
      have closes := (inner.numbered.braces opens (.inr ends) (nested.after (front nested))).1
      simp [ends] at closes

theorem leaves {role : ScopeRole} {info : ScopeInfo} {body : List Stmt}
    (runs : (Clause.scope role info body).Runs cursor after) (nested : cursor.Nested) :
    cursor.step.Leaves after := by
  cases runs with
  | scope opens inner closes => exact (inner.keeps.numbered.braces opens (.inl closes) nested).2.1

end Clause.Runs

section

variable {cursor failed after : Cursor} {error : SyntaxError}

theorem Cursor.Misses.elim (misses : cursor.Misses error failed) (opens : cursor.kind = .openCurly)
    (nested : cursor.Nested) : False := by
  cases misses with
  | unopened other => exact other opens
  | unclosed _ inner ends =>
      have closes := (inner.keeps.numbered.braces opens (.inr ends) nested).1
      simp [ends] at closes

theorem Cursor.Bodied.keeps {role : ScopeRole} {name : String} {parameters : ParameterList}
    {info : ScopeInfo} {body : List Stmt}
    (bodied : Cursor.Bodied role name parameters info body cursor after) : cursor.Keeps after := by
  cases bodied with
  | intro name list inner =>
      exact (Cursor.Keeps.token name (by decide)).trans
        ((Cursor.Keeps.passes list.passes).trans inner.keeps)

theorem FunctionDecl.Runs.keeps {decl : FunctionDecl} (runs : decl.Runs cursor after) :
    cursor.Keeps after := by
  cases runs with
  | typed word _ inner => exact (Cursor.Keeps.token word (by decide)).trans inner.keeps
  | untyped inner => exact inner.keeps

theorem StateMember.Runs.keeps {member : StateMember} (runs : member.Runs cursor after) :
    cursor.Keeps after := by
  cases runs with
  | handler inner =>
      cases inner with
      | intro inner => exact inner.keeps
  | broken _ _ fails =>
      exact fails.keeps.abandoned fun depth tokens closed =>
        Parser.handler_skip_depth ((Nat.zero_add depth).symm ▸ closed)

theorem StateMember.ListRuns.keeps {members : List StateMember}
    (runs : StateMember.ListRuns members cursor after) : cursor.Keeps after := by
  induction runs with
  | ended => exact .refl _
  | followed inner _ rest => exact inner.keeps.trans rest

theorem StateDecl.Runs.keeps {decl : StateDecl} (runs : decl.Runs cursor after) :
    cursor.Keeps after := by
  cases runs with
  | intro head opens inner closes =>
      exact (Cursor.Keeps.passes head.passes.passes).trans fun nested =>
        (inner.keeps.braces opens (.inl closes) nested).2.2

theorem Cursor.Breaks.keeps (breaks : cursor.Breaks error failed) : cursor.Keeps failed := by
  cases breaks with
  | inside fails => exact Clause.Runs.keeps fails
  | unclosed passed opens inner ends =>
      intro nested
      have inside := nested.after (Cursor.Keeps.passes passed nested)
      have closes := (inner.keeps.braces opens (.inr ends) inside).1
      simp [ends] at closes

variable {script grown : Script}

theorem Script.Undone.keeps (undone : script.Undone cursor error failed) : cursor.Keeps failed := by
  cases undone with
  | plain breaks => exact breaks.keeps
  | early _ _ breaks => exact breaks.keeps.still rfl rfl

theorem Script.Extends.keeps (added : script.Extends grown cursor after) : cursor.Keeps after := by
  cases added with
  | function _ _ inner => exact inner.keeps
  | global _ inner => exact .passes inner.passes
  | default _ _ inner => exact inner.keeps
  | early _ _ inner => exact inner.keeps.still rfl rfl
  | state _ inner => exact inner.keeps

/-- A declaration that starts outside of all braces ends outside of them, also where it cannot be
read. -/
theorem Script.Turns.levels (turns : script.Turns grown cursor after) (closed : cursor.Closed)
    (balanced : Balanced cursor.ahead) : cursor.Levels after := by
  have nested : cursor.Nested := ⟨closed, 0, balanced⟩
  cases turns with
  | extended added => exact added.keeps nested
  | broken _ undone =>
      have front := undone.keeps nested
      have even := (front.depth_eq 0).symm.trans balanced
      exact front.trans (Cursor.levels_abandoned (Parser.top_level_skip_depth even))

end

namespace Parser

theorem Turn.levels {start cursor : Cursor} {script : Script} (closed : start.Closed)
    (balanced : Balanced start.ahead) (turn : Turn start script cursor) : start.Levels cursor := by
  induction turn with
  | first => exact .refl start
  | next before open_ read induction =>
      have even : Balanced _ := (induction.depth_eq 0).symm.trans balanced
      have inside := closed.after (before.continues closed.close).1
      exact induction.trans ((before.turns closed.close open_ read).levels inside even)

/-- What stands in front of the body of a handler. -/
def handlerHead : Parser ParameterList := do
  let _ ← expect .identifier
  parameterList

/-- What stands in front of the body of a function. -/
def functionHead : Parser ParameterList := do
  let cursor ← peek
  let _ ← if cursor.kind = .type then type else pure .void
  handlerHead

section

variable {cursor opened : Cursor}

theorem handler_head (closed : cursor.close.kind = .endOfFile) :
    Derives cursor.Faults handlerHead cursor fun _ opened => cursor.Passes opened := by
  unfold handlerHead
  refine Derives.expect (Cursor.Passes.here _).faults (by decide) fun name => ?_
  have begun : cursor.Passes cursor.step := .token (name ▸ by decide) (.here _)
  apply ((Derives.parameter_list (begun.closed closed)).later begun.faults).weaken
  exact fun _ _ list => begun.trans list.passes

theorem bodied_leaves {parameters : ParameterList} (role : ScopeRole) (nested : cursor.Nested)
    (read : handlerHead cursor = .ok parameters opened) (opens : opened.kind = .openCurly) :
    ∃ name result after, opened.step.Leaves after ∧
      ∀ {α : Type} (finish : Token → ParameterList → ScopeInfo × List Stmt → Parser α),
        (do
          let name ← expect .identifier
          let parameters ← parameterList
          let result ← scope role
          finish name parameters result) cursor = finish name parameters result after := by
  have passed := (handler_head nested.closed.close).ok read
  have inside := nested.after (Cursor.Keeps.passes passed nested)
  obtain ⟨result, after, body, inner⟩ := ((Derives.scope role inside.closed.close).later
    fun _ _ misses => misses.elim opens inside).completes
  obtain ⟨name, named, first, second⟩ := bind_eq_ok read
  refine ⟨name, result, after, inner.leaves inside, fun finish => ?_⟩
  rw [bind_of_ok first, bind_of_ok second, bind_of_ok body]

theorem handler_leaves {parameters : ParameterList} (nested : cursor.Nested)
    (read : handlerHead cursor = .ok parameters opened) (opens : opened.kind = .openCurly) :
    ∃ decl after, handlerDecl cursor = .ok decl after ∧ opened.step.Leaves after := by
  obtain ⟨name, result, after, leaves, reads⟩ := bodied_leaves .handler nested read opens
  exact ⟨_, after, reads _, leaves⟩

theorem function_leaves {parameters : ParameterList} (nested : cursor.Nested)
    (read : functionHead cursor = .ok parameters opened) (opens : opened.kind = .openCurly) :
    ∃ decl after, functionDecl cursor = .ok decl after ∧ opened.step.Leaves after := by
  let decl (name : Token) (returns : ValueType) (result : ScopeInfo × List Stmt)
      (after : Cursor) : FunctionDecl :=
    { span := after.spanFrom cursor.start, name := name.text, returns, parameters,
      scope := result.1, body := result.2 }
  unfold functionHead at read
  unfold functionDecl
  obtain ⟨_, _, peeked, read⟩ := bind_eq_ok read
  cases peeked
  by_cases typed : cursor.kind = .type
  · rw [if_pos typed] at read
    obtain ⟨returns, middle, first, second⟩ := bind_eq_ok read
    have reached : Derives (fun _ _ => True) type cursor fun _ after => after = cursor.step := by
      rw [← bind_pure type]
      exact Derives.type (fun _ _ _ => trivial) fun _ _ _ => Derives.pure rfl
    have inside : middle.Nested := by
      rw [reached.ok first]
      exact nested.after (Cursor.Keeps.token typed (by decide) nested)
    obtain ⟨name, result, after, leaves, reads⟩ := bodied_leaves .function inside second opens
    refine ⟨decl name returns result after, after, ?_, leaves⟩
    change (if cursor.kind = .type then type >>= _ else _ : Parser FunctionDecl) cursor = _
    rw [if_pos typed, bind_of_ok first]
    exact reads _
  · rw [if_neg typed] at read
    obtain ⟨name, result, after, leaves, reads⟩ := bodied_leaves .function nested read opens
    refine ⟨decl name .void result after, after, ?_, leaves⟩
    change (if cursor.kind = .type then _ else _ : Parser FunctionDecl) cursor = _
    rw [if_neg typed]
    exact reads _

theorem state_leaves {head : String × Bool} (nested : cursor.Nested)
    (read : stateHead cursor = .ok head opened) (opens : opened.kind = .openCurly) :
    ∃ decl after, stateDecl cursor = .ok decl after ∧ opened.step.Leaves after := by
  have passed := (Derives.state_head.ok read).passes.passes
  have inside := nested.after (Cursor.Keeps.passes passed nested)
  have enough : opened.step.ahead.length < opened.step.budget := by
    rw [Cursor.budget]
    omega
  have shut := opened.reaches_step.closed inside.closed.close
  obtain ⟨members, last, body, inner⟩ := (Derives.state_members_within _ shut enough).completes
  obtain ⟨closes, leaves, _⟩ := inner.keeps.braces opens inner.stops inside
  obtain ⟨name, isDefault⟩ := head
  let decl : StateDecl := { span := last.step.spanFrom cursor.start, name, isDefault, members }
  refine ⟨decl, last.step, ?_, leaves⟩
  unfold stateDecl
  change (stateHead >>= _) cursor = _
  rw [bind_of_ok read]
  apply (bind_of_ok (expect_found opens)).trans
  apply (bind_of_ok body).trans
  rw [bind_of_ok (expect_found closes)]
  rfl

end

end Parser

/-- Where the braces of a whole script are balanced, those behind a place in it close all that is
open there. -/
theorem Cursor.nested_of_reaches {start cursor : Cursor} (closed : start.Closed)
    (balanced : Balanced start.ahead) (reaches : start.Reaches cursor) : cursor.Nested := by
  obtain ⟨front, joined⟩ := reaches.ahead
  rw [Balanced, ← joined, depth_after_append, Option.bind_eq_some_iff] at balanced
  obtain ⟨depth, _, ends⟩ := balanced
  exact ⟨closed.after reaches, depth, ends⟩

/-- Reading a script stays in step with its braces, whatever is wrong between them. -/
structure InStep (tokens : List Token) (start : Cursor) : Prop where
  /-- Readers of bodies have at least this many steps left. -/
  scopes : ∀ cursor, start.Reaches cursor → cursor.kind = .openCurly →
    ∀ role steps, 3 * cursor.ahead.length ≤ steps →
      ∃ result after, Parser.scopeWithin steps role cursor = .ok result after ∧
        cursor.step.Leaves after
  functions : ∀ cursor, start.Reaches cursor → ∀ parameters opened,
    Parser.functionHead cursor = .ok parameters opened → opened.kind = .openCurly →
      ∃ decl after, Parser.functionDecl cursor = .ok decl after ∧ opened.step.Leaves after
  handlers : ∀ cursor, start.Reaches cursor → ∀ parameters opened,
    Parser.handlerHead cursor = .ok parameters opened → opened.kind = .openCurly →
      ∃ decl after, Parser.handlerDecl cursor = .ok decl after ∧ opened.step.Leaves after
  states : ∀ cursor, start.Reaches cursor → ∀ head opened,
    Parser.stateHead cursor = .ok head opened → opened.kind = .openCurly →
      ∃ decl after, Parser.stateDecl cursor = .ok decl after ∧ opened.step.Leaves after
  turns : ∀ script cursor, Parser.Turn start script cursor →
    ∃ read, tokens = read ++ cursor.ahead ∧ Balanced read

/-- Recovering from errors never gets out of step with the braces. In a script of balanced braces a
body that starts at an opening brace is read up to the closing one, wherever it stands and whatever
is in it, and so is a function, a handler or a state once its opening brace is reached. No brace is
open between two turns, which go on to the end of the script. -/
theorem recovery_in_step {tokens : List Token} {closing : Token}
    (open_ : ∀ token ∈ tokens, token.kind ≠ .endOfFile) (ends : closing.kind = .endOfFile)
    (balanced : Balanced tokens) :
    InStep tokens (.ofTokens (tokens ++ [closing])) ∧
      ∃ script cursor, Parser.Turn (.ofTokens (tokens ++ [closing])) script cursor ∧
        cursor.ahead = [] ∧ (parse (tokens ++ [closing])).2 = cursor.errors := by
  have closed := Cursor.closed_of_tokens (tokens ++ [closing])
  have ahead : (Cursor.ofTokens (tokens ++ [closing])).ahead = tokens := by
    have all : ∀ token ∈ tokens, (token.kind != .endOfFile) = true := by simpa using open_
    simp [Cursor.ofTokens, List.takeWhile_append_of_pos all, ends]
  have even : Balanced (Cursor.ofTokens (tokens ++ [closing])).ahead := ahead.symm ▸ balanced
  have nested {cursor : Cursor}
      (reaches : (Cursor.ofTokens (tokens ++ [closing])).Reaches cursor) : cursor.Nested :=
    Cursor.nested_of_reaches closed even reaches
  constructor
  · refine ⟨?_, fun _ reaches _ _ => Parser.function_leaves (nested reaches),
      fun _ reaches _ _ => Parser.handler_leaves (nested reaches),
      fun _ reaches _ _ => Parser.state_leaves (nested reaches), ?_⟩
    · intro cursor reaches opens role steps enough
      have inside := nested reaches
      obtain ⟨result, after, read, runs⟩ :=
        (((Parser.Derives.statements steps).scope role cursor inside.closed.close enough).later
          fun _ _ misses => misses.elim opens inside).completes
      exact ⟨result, after, read, runs.leaves inside⟩
    · intro script cursor turn
      obtain ⟨read, joined, level⟩ := (turn.levels closed even).taken
      exact ⟨read, ahead ▸ joined, level⟩
  · have begun : Parser.Turn (.ofTokens (tokens ++ [closing])) _ _ := .first
    obtain ⟨found, last, final, finished, _, result⟩ := parse_turns begun
    refine ⟨found, last, final, ?_, by rw [result]⟩
    exact (closed.after (final.continues closed.close).1).kind_eq_iff.mp finished

/-- Errors in a condition, behind `else`, in the head of a handler and between two states. -/
theorem broken_script_in_step :
    let source := "f() \x7b if (a \x7b 1 + ; \x7d else b \x7d default \x7b timer() \x7b " ++
      "for ( \x7b ; \x7d \x7d touch( \x7b \x7d \x7d 1 \x7b \x7d state b \x7b ) \x7b \x7d \x7d"
    let tokens := (tokenize source).dropLast
    (parse tokens).2.length = 5 ∧ Balanced tokens ∧
      InStep tokens (.ofTokens (tokens ++ [.closing .origin])) := by
  intro source tokens
  have spelled : source = String.ofList _ := String.ofList_append.symm
  have facts : (∀ token ∈ tokens, token.kind ≠ .endOfFile) ∧ Balanced tokens ∧
      (parse tokens).2.length = 5 := by
    simp only [tokens, tokenize_spelled spelled]
    decide +kernel
  obtain ⟨open_, balanced, count⟩ := facts
  exact ⟨count, balanced, (recovery_in_step open_ rfl balanced).1⟩

end Lsl
