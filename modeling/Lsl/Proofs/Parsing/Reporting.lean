import Lsl.Proofs.Checking.Spelling
import Lsl.Proofs.Parsing.Script
import Lsl.Proofs.Parsing.Wording

/-!
What is reported while a script is read can be seen in what is read: a turn that reports something
and goes on leaves a broken part behind. The expressions that are read are sound in any case.
-/

set_option autoImplicit false

namespace Lsl

/-- A script as it is read when nothing is reported. -/
structure Script.Sound (script : Script) : Prop where
  clean : script.hasErrors = false
  globals : ∀ global ∈ script.globals, ∀ value ∈ global.decl.initializer, value.isPrecedenced = true
  bodies : ∀ body ∈ script.bodies, Stmt.AllSound body.body

structure FunctionDecl.Sound (decl : FunctionDecl) : Prop where
  clean : decl.hasErrors = false
  body : Stmt.AllSound decl.body

structure StateDecl.Sound (decl : StateDecl) : Prop where
  clean : decl.hasErrors = false
  bodies : ∀ body ∈ decl.bodies, Stmt.AllSound body.body

section

variable {cursor after : Cursor}

theorem ParameterList.Runs.clean {parameters : ParameterList}
    (runs : parameters.Runs cursor after) : parameters.hasErrors = false := by
  have whole {members : List ParameterDecl} {place last : Cursor}
      (inner : ParameterDecl.Runs members place last) : members.any (·.faulty) = false := by
    induction inner with
    | last => rfl
    | more _ _ _ _ _ rest => exact rest
  cases runs with
  | nothing => rfl
  | listed _ inner _ => exact whole inner

theorem Cursor.Bodied.reports {role : ScopeRole} {name : String} {parameters : ParameterList}
    {info : ScopeInfo} {body : List Stmt}
    (bodied : Cursor.Bodied role name parameters info body cursor after) :
    cursor.Reports after (parameters.hasErrors || Stmt.listHasErrors body) := by
  cases bodied with
  | intro _ list inner =>
      rw [list.clean]
      exact ((inner.reports trivial).later (.passes list.passes)).later .step

theorem FunctionDecl.Runs.reports {decl : FunctionDecl} (runs : decl.Runs cursor after) :
    cursor.Reports after decl.hasErrors := by
  cases runs with
  | typed _ _ inner => exact inner.reports.later .step
  | untyped inner => exact inner.reports

theorem StateMember.Runs.reports {member : StateMember} (runs : member.Runs cursor after) :
    cursor.Reports after member.hasErrors := by
  cases runs with
  | handler inner =>
      cases inner with
      | intro inner => exact inner.reports
  | broken _ _ fails => exact .abandoned fails.reaches _ _

theorem StateMember.ListRuns.reports {members : List StateMember}
    (runs : StateMember.ListRuns members cursor after) :
    cursor.Reports after (members.any StateMember.hasErrors) := by
  induction runs with
  | ended => exact .passes (.here _)
  | followed inner _ rest => exact inner.reports.append rest

theorem StateDecl.Runs.reports {decl : StateDecl} (runs : decl.Runs cursor after) :
    cursor.Reports after decl.hasErrors := by
  cases runs with
  | intro head _ inner _ =>
      exact ((inner.reports.later .step).later (.passes head.passes.passes)).longer .step

variable {script grown : Script}

theorem Script.Turns.reports (turns : script.Turns grown cursor after)
    (late : script.defaultState = none → cursor.kind ≠ .stateWord) :
    ∃ worse, grown.hasErrors = (script.hasErrors || worse) ∧ cursor.Reports after worse := by
  cases turns with
  | extended added =>
      cases added with
      | function _ _ inner =>
          refine ⟨_, ?_, inner.reports⟩
          simp only [hasErrors, List.any_append, List.any_cons, List.any_nil, Bool.or_false]
          ac_rfl
      | @global span decl _ _ _ inner =>
          have clean := Stmt.option_has_errors_iff.mpr fun expr member =>
            (inner.sound expr member).clean
          refine ⟨false, ?_, .passes inner.passes⟩
          simp [hasErrors, GlobalDecl.hasErrors, Variable.hasErrors, clean]
      | default vacant _ inner =>
          refine ⟨_, ?_, inner.reports⟩
          simp only [hasErrors, vacant, Option.any_some, Option.any_none, Bool.or_false]
          ac_rfl
      | early vacant word => exact absurd word (late vacant)
      | state _ inner =>
          refine ⟨_, ?_, inner.reports⟩
          simp only [hasErrors, List.any_append, List.any_cons, List.any_nil, Bool.or_false]
          ac_rfl
  | broken _ undone =>
      exact ⟨true, by simp [hasErrors], .abandoned (undone.carried .reaches).1 _ _⟩

theorem Script.Turns.loud (turns : script.Turns grown cursor after)
    (vacant : script.defaultState = none) (word : cursor.kind = .stateWord) :
    after.errors ≠ cursor.errors := by
  cases turns with
  | extended added =>
      cases added with
      | function _ other _ => exact absurd word other
      | global _ inner => cases inner <;> simp_all
      | default _ other _ => simp [other] at word
      | early _ _ inner =>
          intro silent
          have longer := inner.reports.reaches.errors.length_le
          rw [silent] at longer
          simp only [Cursor.reported, List.length_append, List.length_singleton] at longer
          omega
      | state taken _ => simp [vacant] at taken
  | broken _ undone => exact Cursor.errors_abandoned_ne (undone.carried .reaches).1 _ _

theorem Script.Turns.global_read (turns : script.Turns grown cursor after) {global : GlobalDecl}
    (member : global ∈ grown.globals) :
    global ∈ script.globals ∨
      ∃ last, (Phrase.declaration global.span global.decl).Runs cursor last := by
  cases turns with
  | extended added =>
      cases added with
      | global _ inner =>
          rcases List.mem_append.mp member with earlier | same
          · exact .inl earlier
          · rw [List.mem_singleton.mp same]
            exact .inr ⟨_, inner⟩
      | _ => exact .inl member
  | broken => exact .inl member

end

namespace Parser.Turn

variable {script : Script} {start cursor : Cursor} (closed : start.close.kind = .endOfFile)
  (turn : Turn start script cursor)

include closed turn

theorem exprs_sound : ∀ expr ∈ script.exprs, expr.Sound := by
  have globals : ∀ global ∈ script.globals, ∀ value ∈ global.decl.initializer.toList,
      value.Sound := by
    apply turn.invariant closed nofun
    intro script grown cursor after _ before turns global member
    rcases turns.global_read member with earlier | ⟨_, inner⟩
    · exact before global earlier
    · exact inner.sound
  intro expr member
  rcases List.mem_append.mp member with member | member
  · obtain ⟨global, known, given⟩ := List.mem_flatMap.mp member
    exact globals global known expr given
  · obtain ⟨body, inside, own⟩ := List.mem_flatMap.mp member
    obtain ⟨_, _, _, runs, _⟩ := turn.contains closed body inside
    exact runs.sound expr own

/-- As long as no state stands in front of the default state, all that is reported can be seen. -/
theorem reports (late : ∀ {script cursor}, Turn start script cursor → script.defaultState = none →
    cursor.kind ≠ .stateWord) : start.Reports cursor script.hasErrors := by
  induction turn with
  | first => exact .passes (.here start)
  | next before open_ read induction =>
      obtain ⟨worse, same, reports⟩ := (before.turns closed open_ read).reports (late before)
      rw [same]
      exact induction.append reports

end Parser.Turn

/-- The expressions that are read are sound, whatever is reported. -/
theorem parse_exprs_sound (tokens : List Token) : ∀ expr ∈ (parse tokens).1.exprs, expr.Sound := by
  obtain ⟨script, last, turn, _, parsed⟩ := parse_last tokens
  have sound := turn.exprs_sound (Cursor.closed_of_tokens tokens).close
  rw [parsed]
  exact sound

section

variable {tokens : List Token}

theorem early_state_loud {script : Script} {cursor : Cursor}
    (turn : Parser.Turn (.ofTokens tokens) script cursor) (vacant : script.defaultState = none)
    (word : cursor.kind = .stateWord) : (parse tokens).2 ≠ [] := by
  have closed := (Cursor.closed_of_tokens tokens).close
  have open_ : cursor.kind ≠ .endOfFile := by simp [word]
  have inside := turn.closed closed
  obtain ⟨extended, after, read, turns⟩ := (Parser.Derives.turn script inside open_).completes
  obtain ⟨_, last, _, _, reaches, parsed⟩ := parse_turns (.next turn open_ read)
  rw [parsed]
  intro silent
  have quiet : after.errors = [] := List.prefix_nil.mp (silent ▸ reaches.errors)
  have before : cursor.errors = [] :=
    List.prefix_nil.mp (quiet ▸ (turns.carried .reaches).errors)
  exact turns.loud vacant word (quiet.trans before.symm)

theorem silent_iff_clean (late : ∀ {script cursor}, Parser.Turn (.ofTokens tokens) script cursor →
    script.defaultState = none → cursor.kind ≠ .stateWord) :
    (parse tokens).2 = [] ↔ (parse tokens).1.hasErrors = false := by
  obtain ⟨script, last, turn, _, parsed⟩ := parse_last tokens
  rw [parsed]
  exact (turn.reports (Cursor.closed_of_tokens tokens).close late).shown

theorem parse_sound (silent : (parse tokens).2 = []) : (parse tokens).1.Sound := by
  have sound := parse_exprs_sound tokens
  have clean := (silent_iff_clean fun turn vacant word =>
    early_state_loud turn vacant word silent).mp silent
  have parts := Script.has_errors_iff.mp clean
  refine ⟨clean, ?_, ?_⟩
  · intro global member value given
    refine (sound value (List.mem_append_left _ ?_)).precedenced
    exact List.mem_flatMap.mpr ⟨global, member, Option.mem_toList.mpr given⟩
  · intro body inside
    constructor
    · rcases List.mem_append.mp inside with inside | inside
      · obtain ⟨decl, member, rfl⟩ := List.mem_map.mp inside
        have whole := parts.2.2.1 decl member
        simp only [FunctionDecl.hasErrors, Bool.or_eq_false_iff] at whole
        exact whole.2
      · obtain ⟨state, member, own⟩ := List.mem_flatMap.mp inside
        have whole := parts.2.2.2.1 state member
        simp only [StateDecl.hasErrors, Bool.or_eq_false_iff, List.any_eq_false] at whole
        obtain ⟨part, known, found⟩ := List.mem_filterMap.mp own
        cases part with
        | broken => cases found
        | handler decl =>
            cases found
            have read := whole.2 _ known
            simp only [StateMember.hasErrors, HandlerDecl.hasErrors, Bool.or_eq_true, not_or,
              Bool.not_eq_true] at read
            exact read.2
    · intro stmt found expr own
      refine (sound expr (List.mem_append_right _ ?_)).precedenced
      exact List.mem_flatMap.mpr ⟨body, inside, List.mem_flatMap.mpr ⟨stmt, found, own⟩⟩

end

/-- What is reported can be seen in the script, unless a state stands in front of the default state:
it is reported, and read like any other. -/
theorem errors_reported_iff (tokens : List Token) :
    (parse tokens).2 ≠ [] ↔
      (parse tokens).1.hasErrors = true ∨
        ∃ script cursor, Parser.Turn (.ofTokens tokens) script cursor ∧
          script.defaultState = none ∧ cursor.kind = .stateWord := by
  by_cases early : ∃ script cursor, Parser.Turn (.ofTokens tokens) script cursor ∧
      script.defaultState = none ∧ cursor.kind = .stateWord
  · obtain ⟨script, cursor, turn, vacant, word⟩ := early
    exact iff_of_true (early_state_loud turn vacant word) (.inr ⟨script, cursor, turn, vacant, word⟩)
  · have shown := silent_iff_clean fun turn vacant word => early ⟨_, _, turn, vacant, word⟩
    simp only [early, or_false, ne_eq, shown, Bool.not_eq_false]

/-- A state in front of the default state is reported, but nothing in the script shows it. -/
theorem early_state_hidden :
    let tokens := tokenize
      "state other { timer() { } }\ndefault { state_entry() { } }"
    (parse tokens).2.length = 1 ∧ (parse tokens).1.hasErrors = false := by
  intro tokens
  simp only [tokens]
  rw [tokenize_spelled (rfl : _ = String.ofList _)]
  decide +kernel

end Lsl
