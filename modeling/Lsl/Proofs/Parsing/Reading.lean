import Lsl.Proofs.Parsing.Declarations
import Mathlib.Data.List.Basic

/-!
How readers move. The tokens ahead start one behind the other, and a reader only ever steps forward.
-/

set_option autoImplicit false

namespace Lsl

namespace Cursor

/-- The starts of the tokens ahead, the closing token last. -/
def places (cursor : Cursor) : List Nat :=
  (cursor.ahead ++ [cursor.close]).map (·.span.start.offset)

/-- The tokens ahead stand in order, and only the last of them closes the script. -/
structure Ordered (cursor : Cursor) : Prop where
  rising : cursor.places.Pairwise (· < ·)
  closed : cursor.close.kind = .endOfFile

/-- The second cursor is one that reading from the first may come to. -/
structure Leads (cursor after : Cursor) : Prop extends cursor.Reaches after where
  start : cursor.start.offset ≤ after.start.offset

theorem Leads.refl (cursor : Cursor) : cursor.Leads cursor :=
  ⟨.refl cursor, Nat.le_refl _⟩

theorem Leads.trans {first second third : Cursor} (front : first.Leads second)
    (back : second.Leads third) : first.Leads third where
  toReaches := front.toReaches.trans back.toReaches
  start := Nat.le_trans front.start back.start

/-- If nothing was reported on the whole way, nothing was on either part of it. -/
theorem Leads.silent {first second third : Cursor} (front : first.Leads second)
    (back : second.Leads third) (same : third.errors = first.errors) :
    second.errors = first.errors ∧ third.errors = second.errors :=
  front.toReaches.silent back.toReaches same

theorem Ordered.after {cursor after : Cursor} (ordered : cursor.Ordered)
    (leads : cursor.Leads after) : after.Ordered where
  rising := by
    obtain ⟨read, same⟩ := leads.ahead
    have rising := ordered.rising
    rw [places, ← same, List.append_assoc, List.map_append, ← leads.close] at rising
    exact (List.pairwise_append.mp rising).2.1
  closed := leads.close ▸ ordered.closed

namespace Ordered

variable {cursor after : Cursor} (ordered : cursor.Ordered)

include ordered

theorem start_lt (reaches : cursor.Reaches after)
    (shorter : after.ahead.length < cursor.ahead.length) :
    cursor.start.offset < after.start.offset := by
  obtain ⟨read, joined⟩ := reaches.ahead
  have rising := ordered.rising
  cases read with
  | nil =>
      have same : after.ahead = cursor.ahead := joined
      exact absurd shorter (by simp [same])
  | cons token read =>
      rw [places, ← joined, List.cons_append, List.cons_append, List.map_cons] at rising
      have first : cursor.start = token.span.start := by simp [start, current, ← joined]
      rw [first]
      apply List.rel_of_pairwise_cons rising
      rw [← reaches.close]
      cases ahead : after.ahead <;> simp [start, current, ahead]

theorem start_le (reaches : cursor.Reaches after) :
    cursor.start.offset ≤ after.start.offset := by
  rcases Nat.lt_or_ge after.ahead.length cursor.ahead.length with shorter | stays
  · exact Nat.le_of_lt (ordered.start_lt reaches shorter)
  · have same : after.ahead = cursor.ahead := reaches.ahead.eq_of_length_le stays
    simp [start, current, same, reaches.close]

theorem start_lt_of_advances (advances : cursor.Advances after) :
    cursor.start.offset < after.start.offset :=
  ordered.start_lt advances.passes.reaches (advances.length_lt ordered.closed)

theorem further {kind : TokenKind} (found : cursor.kind = kind) (goes : kind ≠ .endOfFile)
    (leads : cursor.step.Leads after) : cursor.start.offset < after.start.offset := by
  have shorter := length_step_lt ordered.closed (found ▸ goes)
  exact Nat.lt_of_lt_of_le (ordered.start_lt cursor.reaches_step shorter) leads.start

end Ordered

theorem Carries.leads : Carries fun cursor after => cursor.Ordered → cursor.Leads after where
  refl cursor _ := .refl cursor
  trans front back ordered := by
    have leads := front ordered
    exact leads.trans (back (ordered.after leads))
  step cursor ordered := ⟨cursor.reaches_step, ordered.start_le cursor.reaches_step⟩
  numbered cursor _ := ⟨Carries.reaches.numbered cursor, Nat.le_refl _⟩
  reported front _ ordered := by
    have leads := front ordered
    exact leads.trans ⟨reaches_reported _ _, Nat.le_refl _⟩

variable {cursor after : Cursor}

theorem leads_step (ordered : cursor.Ordered) : cursor.Leads cursor.step :=
  Carries.leads.step cursor ordered

theorem Passes.leads (passed : cursor.Passes after) (ordered : cursor.Ordered) :
    cursor.Leads after :=
  passed.carried .leads ordered

end Cursor

theorem Clause.Runs.leads {clause : Clause} {cursor after : Cursor} (runs : clause.Runs cursor after)
    (ordered : cursor.Ordered) : cursor.Leads after :=
  (runs.carried .leads).1 ordered

end Lsl
