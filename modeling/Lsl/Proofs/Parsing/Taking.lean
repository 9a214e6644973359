import Lsl.Parsing.Cursor
import Lsl.Proofs.Syntax.Words
import Mathlib.Data.List.TakeWhile

/-!
What readers take. A reader stands further on when it has read something, and between the two places
stand the tokens its result is written with. Nothing is asked of the places of the tokens.
-/

set_option autoImplicit false

namespace Lsl

namespace Cursor

/-- Only the last token closes the script. -/
structure Closed (cursor : Cursor) : Prop where
  close : cursor.close.kind = .endOfFile
  ahead : ∀ token ∈ cursor.ahead, token.kind ≠ .endOfFile

/-- The second cursor stands further on, and reports are only ever added. -/
structure Reaches (cursor after : Cursor) : Prop where
  ahead : after.ahead <:+ cursor.ahead
  close : after.close = cursor.close
  errors : cursor.errors <+: after.errors

theorem Reaches.refl (cursor : Cursor) : cursor.Reaches cursor :=
  ⟨List.suffix_refl _, rfl, List.prefix_refl _⟩

theorem Reaches.trans {first second third : Cursor} (front : first.Reaches second)
    (back : second.Reaches third) : first.Reaches third where
  ahead := back.ahead.trans front.ahead
  close := back.close.trans front.close
  errors := front.errors.trans back.errors

theorem Reaches.silent {first second third : Cursor} (front : first.Reaches second)
    (back : second.Reaches third) (same : third.errors = first.errors) :
    second.errors = first.errors ∧ third.errors = second.errors := by
  have equal : first.errors = second.errors :=
    front.errors.eq_of_length_le (by rw [← same]; exact back.errors.length_le)
  exact ⟨equal.symm, same.trans equal⟩

theorem Closed.after {cursor after : Cursor} (closed : cursor.Closed)
    (reaches : cursor.Reaches after) : after.Closed where
  close := reaches.close ▸ closed.close
  ahead := fun token member => closed.ahead token (reaches.ahead.subset member)

theorem Closed.kind_eq_iff {cursor : Cursor} (closed : cursor.Closed) :
    cursor.kind = .endOfFile ↔ cursor.ahead = [] := by
  cases ahead : cursor.ahead with
  | nil => simp [kind, current, ahead, closed.close]
  | cons token rest =>
      have open_ : token.kind ≠ .endOfFile := closed.ahead token (by simp [ahead])
      simp [kind, current, ahead, open_]

theorem closed_of_tokens (tokens : List Token) : (ofTokens tokens).Closed where
  close := by
    unfold ofTokens
    cases found : tokens.find? (·.kind == .endOfFile) with
    | none => rfl
    | some token => simpa using List.find?_some found
  ahead := by
    intro token member
    simpa using List.mem_takeWhile_imp member

theorem reaches_step (cursor : Cursor) : cursor.Reaches cursor.step := by
  cases ahead : cursor.ahead with
  | nil =>
      have same : cursor.step = cursor := by simp [step, ahead]
      rw [same]
      exact .refl cursor
  | cons token rest =>
      refine ⟨⟨[token], ?_⟩, ?_, ?_⟩ <;> simp [step, ahead]

theorem reaches_skip (cursor : Cursor) (count : Nat) : cursor.Reaches (cursor.skip count) := by
  induction count generalizing cursor with
  | zero => exact .refl cursor
  | succ count induction => exact cursor.reaches_step.trans (induction cursor.step)

theorem errors_step (cursor : Cursor) : cursor.step.errors = cursor.errors := by
  cases ahead : cursor.ahead <;> simp [step, ahead]

/-- Between the cursors stand the tokens that the words are written with. -/
def Takes (cursor after : Cursor) (words : List Word) : Prop :=
  cursor.close.kind = .endOfFile →
    Opens words cursor.ahead after.ahead ∧ after.close = cursor.close

namespace Takes

variable {cursor middle after : Cursor} {words more : List Word}

theorem none (cursor : Cursor) : cursor.Takes cursor [] := fun _ => ⟨.nil, rfl⟩

theorem append (front : cursor.Takes middle words) (back : middle.Takes after more) :
    cursor.Takes after (words ++ more) := by
  intro closed
  have begun := front closed
  have ended := back (begun.2 ▸ closed)
  exact ⟨begun.1.append ended.1, ended.2.trans begun.2⟩

/-- A token can be stepped over as any word that fits it. -/
theorem token {kind : TokenKind} (found : cursor.kind = kind) (goes : kind ≠ .endOfFile)
    {word : Word} (fits : word.Fits cursor.current) : cursor.Takes cursor.step [word] := by
  intro closed
  refine ⟨?_, cursor.reaches_step.close⟩
  cases ahead : cursor.ahead with
  | nil => exact absurd (by simpa [Cursor.kind, current, ahead, closed] using found.symm) goes
  | cons token rest =>
      have same : cursor.current = token := by simp [current, ahead]
      exact ⟨[token], by simp [step, ahead], .single (same ▸ fits)⟩

theorem mark {kind : TokenKind} (found : cursor.kind = kind) (goes : kind ≠ .endOfFile) :
    cursor.Takes cursor.step [.mark kind] :=
  token found goes found

theorem name (found : cursor.kind = .identifier) :
    cursor.Takes cursor.step [.named .identifier cursor.current.text] :=
  token found (by decide) ⟨found, rfl⟩

theorem type {value : ValueType} (found : cursor.kind = .type)
    (named : ValueType.ofKeyword? cursor.current.text = some value) :
    cursor.Takes cursor.step [.type value] :=
  token found (by decide) ⟨found, named⟩

theorem state (found : cursor.kind = .defaultWord ∨ cursor.kind = .identifier) :
    cursor.Takes cursor.step [.state cursor.current.text] := by
  refine token rfl ?_ ⟨found, rfl⟩
  rcases found with found | found <;> rw [found] <;> decide

end Takes

end Cursor

/-- No word of a script names the type of nothing. -/
theorem ValueType.of_keyword_ne_void {text : String} :
    ValueType.ofKeyword? text ≠ some .void := by
  unfold ofKeyword?
  split <;> simp

end Lsl
