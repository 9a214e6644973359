import Lsl.Proofs.Parsing.Declarations

/-!
A script is read in turns, one declaration each. Every turn steps over a token, so that the turns go
on to the end of the script, and what is read is what the last of them leaves.
-/

set_option autoImplicit false

namespace Lsl

namespace Parser

/-- Where reading stands when a declaration is looked for, and what has been read so far. -/
inductive Turn (start : Cursor) : Script → Cursor → Prop where
  | first : Turn start { span := .point start.start } start
  | next {script extended : Script} {cursor after : Cursor} (before : Turn start script cursor)
      (open_ : cursor.kind ≠ .endOfFile)
      (read : recovering (declaration script) (breakDeclaration script cursor.start) cursor =
        .ok extended after) :
      Turn start extended after

section

variable {script extended : Script} {start cursor after : Cursor}

theorem declarations_end (fuel : Nat) (script : Script) (ended : cursor.kind = .endOfFile) :
    declarationsWithin (fuel + 1) script cursor = .ok script cursor := by
  rw [declarationsWithin]
  change (if cursor.kind = .endOfFile then Pure.pure script else _ : Parser Script) cursor = _
  rw [if_pos ended]
  rfl

theorem declarations_step (fuel : Nat) (open_ : cursor.kind ≠ .endOfFile)
    (read : recovering (declaration script) (breakDeclaration script cursor.start) cursor =
      .ok extended after) :
    declarationsWithin (fuel + 1) script cursor = declarationsWithin fuel extended after := by
  rw [declarationsWithin]
  change (if cursor.kind = .endOfFile then Pure.pure script else _ : Parser Script) cursor = _
  rw [if_neg open_]
  exact bind_of_ok read

theorem declarations_eq {fuel more : Nat} (closed : cursor.close.kind = .endOfFile)
    (enough : cursor.ahead.length < fuel) (plenty : cursor.ahead.length < more) :
    declarationsWithin fuel script cursor = declarationsWithin more script cursor := by
  induction fuel generalizing more cursor script with
  | zero => omega
  | succ fuel induction =>
      obtain ⟨more, rfl⟩ := Nat.exists_eq_succ_of_ne_zero (Nat.ne_zero_of_lt plenty)
      by_cases ended : cursor.kind = .endOfFile
      · rw [declarations_end fuel script ended, declarations_end more script ended]
      · obtain ⟨extended, after, read, turns⟩ := (Derives.turn script closed ended).completes
        have shorter := turns.shorter closed
        have reaches := turns.carried .reaches
        rw [declarations_step fuel ended read, declarations_step more ended read]
        exact induction (reaches.closed closed) (by omega) (by omega)

theorem Turn.continues (closed : start.close.kind = .endOfFile) (turn : Turn start script cursor) :
    start.Reaches cursor ∧
      declarationsWithin start.budget { span := .point start.start } start =
        declarationsWithin cursor.budget script cursor := by
  induction turn with
  | first => exact ⟨.refl start, rfl⟩
  | @next script extended cursor after before open_ read induction =>
      obtain ⟨reaches, same⟩ := induction
      have inside := reaches.closed closed
      have turns := (Derives.turn script inside open_).ok read
      have shorter := turns.shorter inside
      have further := turns.carried .reaches
      refine ⟨reaches.trans further, same.trans ?_⟩
      rw [Cursor.budget, declarations_step _ open_ read]
      exact declarations_eq (further.closed inside) (by omega) (by rw [Cursor.budget]; omega)

theorem Turn.closed (closed : start.close.kind = .endOfFile) (turn : Turn start script cursor) :
    cursor.close.kind = .endOfFile :=
  (turn.continues closed).1.closed closed

theorem Turn.turns (closed : start.close.kind = .endOfFile) (turn : Turn start script cursor)
    (open_ : cursor.kind ≠ .endOfFile)
    (read : recovering (declaration script) (breakDeclaration script cursor.start) cursor =
      .ok extended after) : script.Turns extended cursor after :=
  (Derives.turn script (turn.closed closed) open_).ok read

/-- What holds at the start, and is preserved by each turn, holds after any number of turns. -/
theorem Turn.invariant {motive : Script → Cursor → Prop} (closed : start.close.kind = .endOfFile)
    (first : motive { span := .point start.start } start)
    (step : ∀ {script grown cursor after}, cursor.close.kind = .endOfFile → motive script cursor →
      script.Turns grown cursor after → motive grown after)
    (turn : Turn start script cursor) : motive script cursor := by
  induction turn with
  | first => exact first
  | next before open_ read induction =>
      exact step (before.closed closed) induction (before.turns closed open_ read)

theorem Turn.last (closed : start.close.kind = .endOfFile) (turn : Turn start script cursor) :
    ∃ found last, Turn start found last ∧ last.kind = .endOfFile ∧ cursor.Reaches last ∧
      declarationsWithin cursor.budget script cursor = .ok found last := by
  generalize measure : cursor.ahead.length = count
  -- Each turn leaves fewer tokens ahead, so the turns come to the end.
  induction count using Nat.strongRecOn generalizing script cursor with
  | ind count induction =>
      by_cases ended : cursor.kind = .endOfFile
      · exact ⟨script, cursor, turn, ended, .refl cursor, declarations_end _ script ended⟩
      · have inside := turn.closed closed
        obtain ⟨extended, after, read, turns⟩ := (Derives.turn script inside ended).completes
        have shorter := turns.shorter inside
        have reaches := turns.carried .reaches
        obtain ⟨found, last, final, ends, further, result⟩ :=
          induction _ (by omega) (.next turn ended read) rfl
        refine ⟨found, last, final, ends, reaches.trans further, ?_⟩
        rw [← result, Cursor.budget, declarations_step _ ended read]
        exact declarations_eq (reaches.closed inside) (by omega) (by rw [Cursor.budget]; omega)

end

end Parser

/-- What is read of tokens is what the last turn leaves, whichever turn is looked at before. -/
theorem parse_turns {tokens : List Token} {script : Script} {cursor : Cursor}
    (turn : Parser.Turn (.ofTokens tokens) script cursor) :
    ∃ found last, Parser.Turn (.ofTokens tokens) found last ∧ last.kind = .endOfFile ∧
      cursor.Reaches last ∧
      parse tokens =
        ({ found with span := last.spanFrom (Cursor.ofTokens tokens).start }, last.errors) := by
  have closed := (Cursor.closed_of_tokens tokens).close
  obtain ⟨found, last, final, ends, reaches, result⟩ := turn.last closed
  refine ⟨found, last, final, ends, reaches, ?_⟩
  rw [← (turn.continues closed).2] at result
  have read : Parser.script (.ofTokens tokens) =
      .ok { found with span := last.spanFrom (Cursor.ofTokens tokens).start } last := by
    unfold Parser.script
    change (Parser.declarationsWithin _ _ >>= _) (Cursor.ofTokens tokens) = _
    rw [Parser.bind_of_ok result]
    rfl
  rw [parse, read]

theorem parse_last (tokens : List Token) :
    ∃ script last, Parser.Turn (.ofTokens tokens) script last ∧ last.kind = .endOfFile ∧
      parse tokens =
        ({ script with span := last.spanFrom (Cursor.ofTokens tokens).start }, last.errors) := by
  obtain ⟨script, last, turn, ends, _, parsed⟩ := parse_turns .first
  exact ⟨script, last, turn, ends, parsed⟩

theorem parse_invariant {motive : Script → Cursor → Prop} (tokens : List Token)
    (first : motive { span := .point (Cursor.ofTokens tokens).start } (.ofTokens tokens))
    (step : ∀ {script grown cursor after}, cursor.close.kind = .endOfFile → motive script cursor →
      script.Turns grown cursor after → motive grown after) :
    ∃ script last, motive script last ∧ last.kind = .endOfFile ∧
      parse tokens =
        ({ script with span := last.spanFrom (Cursor.ofTokens tokens).start }, last.errors) := by
  obtain ⟨script, last, turn, ends, parsed⟩ := parse_last tokens
  exact ⟨script, last, turn.invariant (Cursor.closed_of_tokens tokens).close first step, ends,
    parsed⟩

end Lsl
