import Lsl.Proofs.Parsing.Precedence
import Lsl.Proofs.Parsing.Turns

/-!
What reading a script says when it fails. Whatever is reported says of some token ahead that it is not
one of those expected. That an operator was expected, and an assignment stands there, is said only
behind an expression that cannot be assigned to.
-/

set_option autoImplicit false

namespace Lsl

namespace Cursor

/-- An error that reading may raise from the start on: a token ahead is not one of those expected.
An assignment is refused behind an expression that was read from some place ahead. -/
inductive Blames (start : Cursor) : SyntaxError → Prop where
  | missed {place : Cursor} {expecting : String} (reaches : start.Reaches place)
      (listed : expecting ∈ expectations)
      (other : expecting = Parser.afterExpression → place.kind.isAssignment = false) :
      Blames start (place.mismatch expecting)
  | refused {origin place : Cursor} {left : Expr} (begins : start.Reaches origin)
      (reaches : origin.Reaches place) (behind : Opens left.words origin.ahead place.ahead)
      (fixed : left.isAssignable = false) (assigns : place.kind.isAssignment = true) :
      Blames start (place.mismatch Parser.afterExpression)

variable {start cursor after : Cursor}

theorem mismatch_eq (open_ : cursor.kind ≠ .endOfFile) (expecting : String) :
    cursor.mismatch expecting = .mismatched cursor.current expecting := by
  have current : cursor.current.kind ≠ .endOfFile := open_
  simp only [mismatch, current, if_false, SyntaxError.mismatched]

theorem Blames.later {error : SyntaxError} (blames : cursor.Blames error)
    (reaches : start.Reaches cursor) : start.Blames error := by
  cases blames with
  | missed further listed other => exact .missed (reaches.trans further) listed other
  | refused begins further behind fixed assigns =>
      exact .refused (reaches.trans begins) further behind fixed assigns

/-- What is reported on the way from one cursor to another is what reading may raise. -/
structure Accounts (cursor after : Cursor) : Prop where
  reaches : cursor.Reaches after
  blames : ∀ error ∈ after.errors, error ∈ cursor.errors ∨ cursor.Blames error

theorem Accounts.silent (reaches : cursor.Reaches after) (same : after.errors = cursor.errors) :
    cursor.Accounts after :=
  ⟨reaches, fun _ member => .inl (same ▸ member)⟩

/-- Where an expression was read that cannot be assigned to, its words stand in front of the error. -/
theorem Raises.blames {error : SyntaxError} (closed : cursor.close.kind = .endOfFile)
    (raises : Raises (fun cursor after => cursor.close.kind = .endOfFile → cursor.Accounts after)
      cursor error) : cursor.Blames error := by
  cases raises with
  | missed onward listed other => exact .missed (onward closed).reaches listed other
  | unnamed onward plain listed other =>
      rw [← mismatch_eq plain.2.2]
      exact .missed (onward closed).reaches listed fun same => absurd same other
  | refused begins onward runs fixed assigns =>
      have reached := (begins closed).reaches
      have written := runs.takes (reached.closed closed)
      exact .refused reached runs.passes.reaches written.1 fixed assigns

theorem Carries.accounts :
    Carries fun cursor after => cursor.close.kind = .endOfFile → cursor.Accounts after where
  refl cursor _ := .silent (.refl cursor) rfl
  trans := by
    intro first second third front back closed
    have begun := front closed
    have ended := back (begun.reaches.closed closed)
    refine ⟨begun.reaches.trans ended.reaches, fun error member => ?_⟩
    rcases ended.blames error member with earlier | blames
    · exact begun.blames error earlier
    · exact .inr (blames.later begun.reaches)
  step cursor _ := .silent cursor.reaches_step cursor.errors_step
  numbered cursor _ := .silent (Carries.reaches.numbered cursor) rfl
  reported := by
    intro cursor failed error front raises closed
    have begun := front closed
    refine ⟨begun.reaches.trans (reaches_reported _ _), fun found member => ?_⟩
    rcases List.mem_append.mp member with earlier | new
    · exact begun.blames found earlier
    · exact .inr (List.mem_singleton.mp new ▸ raises.blames closed)

end Cursor

theorem parse_blames (tokens : List Token) :
    ∀ error ∈ (parse tokens).2, (Cursor.ofTokens tokens).Blames error := by
  have closed := (Cursor.closed_of_tokens tokens).close
  have last := parse_invariant tokens
    (motive := fun _ after => (Cursor.ofTokens tokens).Accounts after)
    (.silent (.refl _) rfl) fun _ accounts turns =>
      Cursor.Carries.accounts.trans (fun _ => accounts) (turns.carried .accounts) closed
  obtain ⟨script, after, accounts, _, parsed⟩ := last
  intro error member
  rw [parsed] at member
  rcases accounts.blames error member with already | blames
  · cases already
  · exact blames

end Lsl
