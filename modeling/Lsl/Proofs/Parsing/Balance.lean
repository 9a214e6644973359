import Lsl.Parsing.Script
import Lsl.Proofs.Parsing.Taking

/-!
Braces and how they are stepped over. What is skipped behind a broken statement, handler or
declaration holds as many opening braces as closing ones, each of them behind its opening one.
-/

set_option autoImplicit false

namespace Lsl

/-- The number of braces that are open behind the tokens, if none is closed that was not open. -/
def depthAfter (depth : Nat) : List Token → Option Nat
  | [] => some depth
  | token :: rest =>
    match token.kind with
    | .openCurly => depthAfter (depth + 1) rest
    | .closeCurly => if depth = 0 then none else depthAfter (depth - 1) rest
    | _ => depthAfter depth rest

/-- Every brace that is opened is closed, and none else. -/
def Balanced (tokens : List Token) : Prop := depthAfter 0 tokens = some 0

instance (tokens : List Token) : Decidable (Balanced tokens) :=
  inferInstanceAs (Decidable (depthAfter 0 tokens = some 0))

/-- A token that is stepped over without care for the depth. -/
def TokenKind.Plain (kind : TokenKind) : Prop :=
  kind ≠ .openCurly ∧ kind ≠ .closeCurly ∧ kind ≠ .endOfFile

instance (kind : TokenKind) : Decidable kind.Plain :=
  inferInstanceAs (Decidable (_ ∧ _ ∧ _))

theorem depth_after_open {token : Token} (opens : token.kind = .openCurly) (depth : Nat)
    (rest : List Token) : depthAfter depth (token :: rest) = depthAfter (depth + 1) rest := by
  simp only [depthAfter, opens]

theorem depth_after_close {token : Token} (closes : token.kind = .closeCurly) (depth : Nat)
    (rest : List Token) : depthAfter (depth + 1) (token :: rest) = depthAfter depth rest := by
  simp [depthAfter, closes]

theorem depth_after_plain {token : Token} (outer : token.kind ≠ .openCurly)
    (inner : token.kind ≠ .closeCurly) (depth : Nat) (rest : List Token) :
    depthAfter depth (token :: rest) = depthAfter depth rest := by
  rw [depthAfter]
  split
  · contradiction
  · contradiction
  · rfl

theorem depth_after_append (front back : List Token) (depth : Nat) :
    depthAfter depth (front ++ back) = (depthAfter depth front).bind (depthAfter · back) := by
  induction front generalizing depth with
  | nil => rfl
  | cons token front induction =>
      simp only [List.cons_append, depthAfter]
      split
      · exact induction _
      · split
        · rfl
        · exact induction _
      · exact induction _

theorem depth_after_raised {tokens : List Token} {depth after : Nat}
    (reached : depthAfter depth tokens = some after) (more : Nat) :
    depthAfter (depth + more) tokens = some (after + more) := by
  induction tokens generalizing depth with
  | nil =>
      simp only [depthAfter, Option.some.injEq] at reached ⊢
      omega
  | cons token tokens induction =>
      by_cases opens : token.kind = .openCurly
      · rw [depth_after_open opens] at reached ⊢
        rw [Nat.add_right_comm]
        exact induction reached
      by_cases closes : token.kind = .closeCurly
      · cases depth with
        | zero => simp [depthAfter, closes] at reached
        | succ depth =>
            rw [depth_after_close closes] at reached
            rw [Nat.add_right_comm, depth_after_close closes]
            exact induction reached
      · rw [depth_after_plain opens closes] at reached ⊢
        exact induction reached

namespace Balanced

theorem nil : Balanced [] := rfl

theorem append {front back : List Token} (first : Balanced front) (second : Balanced back) :
    Balanced (front ++ back) := by
  rw [Balanced, depth_after_append, first]
  exact second

theorem single {token : Token} (outer : token.kind ≠ .openCurly)
    (inner : token.kind ≠ .closeCurly) : Balanced [token] := by
  rw [Balanced, depth_after_plain outer inner]
  rfl

theorem braced {opening closing : Token} {tokens : List Token} (balanced : Balanced tokens)
    (opens : opening.kind = .openCurly) (closes : closing.kind = .closeCurly) :
    Balanced (opening :: (tokens ++ [closing])) := by
  rw [Balanced, depth_after_open opens, depth_after_append, depth_after_raised balanced 1]
  exact depth_after_close closes 0 []

theorem depth_eq {front : List Token} (balanced : Balanced front) (depth : Nat)
    (back : List Token) : depthAfter depth (front ++ back) = depthAfter depth back := by
  have raised := depth_after_raised balanced depth
  rw [Nat.zero_add] at raised
  rw [depth_after_append, raised]
  rfl

end Balanced

namespace Parser

theorem statement_skip_pos {token : Token} (rest : List Token)
    (inside : token.kind ≠ .closeCurly) : 0 < statementSkip 0 (token :: rest) := by
  rw [statementSkip]
  split
  · simp
  · omega
  · contradiction
  · omega

theorem handler_skip_pos {token : Token} (rest : List Token) (inside : token.kind ≠ .closeCurly) :
    0 < handlerSkip 0 false (token :: rest) := by
  rw [handlerSkip]
  split
  · omega
  · contradiction
  · simp only [Bool.false_eq_true, and_false, ↓reduceIte]
    omega
  · omega

theorem top_level_skip_pos (token : Token) (rest : List Token) :
    0 < topLevelSkip 0 false (token :: rest) := by
  simp only [topLevelSkip, Bool.false_eq_true, and_false, ↓reduceIte, Nat.zero_le]
  split <;> omega

/-- From some depth on, what is skipped behind a broken statement closes the braces that are open,
whatever is open around them. -/
theorem statement_skip_depth {tokens : List Token} {depth more : Nat}
    (closed : depthAfter (depth + more) tokens = some 0) :
    depthAfter depth (tokens.take (statementSkip depth tokens)) = some 0 := by
  induction tokens generalizing depth with
  | nil =>
      simp only [depthAfter, Option.some.injEq] at closed
      simp only [List.take_nil, depthAfter, Option.some.injEq]
      omega
  | cons token rest induction =>
      rw [statementSkip]
      split
      · rename_i separates
        have outer : token.kind ≠ .openCurly := by simp [separates]
        have inner : token.kind ≠ .closeCurly := by simp [separates]
        rw [depth_after_plain outer inner] at closed
        split
        · rename_i outermost
          subst outermost
          exact depth_after_plain outer inner 0 []
        · rw [Nat.add_comm 1, List.take_succ_cons, depth_after_plain outer inner]
          exact induction closed
      · rename_i opens
        rw [depth_after_open opens, Nat.add_right_comm] at closed
        rw [Nat.add_comm 1, List.take_succ_cons, depth_after_open opens]
        exact induction closed
      · rename_i closes
        cases depth with
        | zero => rfl
        | succ depth =>
            rw [Nat.add_right_comm, depth_after_close closes] at closed
            simp only [Nat.add_eq_zero_iff, Nat.reduceEqDiff, and_false, ↓reduceIte,
              Nat.add_eq_right, Nat.add_sub_cancel]
            split
            · rename_i last
              subst last
              split
              · rw [Nat.add_comm 1, List.take_succ_cons, depth_after_close closes]
                exact induction closed
              · exact depth_after_close closes 0 []
            · rw [Nat.add_comm 1, List.take_succ_cons, depth_after_close closes]
              exact induction closed
      · rename_i separates outer inner
        rw [depth_after_plain outer inner] at closed
        rw [Nat.add_comm 1, List.take_succ_cons, depth_after_plain outer inner]
        exact induction closed

theorem handler_skip_depth {tokens : List Token} {depth more : Nat} {skipped : Bool}
    (closed : depthAfter (depth + more) tokens = some 0) :
    depthAfter depth (tokens.take (handlerSkip depth skipped tokens)) = some 0 := by
  induction tokens generalizing depth skipped with
  | nil =>
      simp only [depthAfter, Option.some.injEq] at closed
      simp only [List.take_nil, depthAfter, Option.some.injEq]
      omega
  | cons token rest induction =>
      rw [handlerSkip]
      split
      · rename_i opens
        rw [depth_after_open opens, Nat.add_right_comm] at closed
        rw [Nat.add_comm 1, List.take_succ_cons, depth_after_open opens]
        exact induction closed
      · rename_i closes
        cases depth with
        | zero => rfl
        | succ depth =>
            rw [Nat.add_right_comm, depth_after_close closes] at closed
            simp only [Nat.add_eq_zero_iff, Nat.reduceEqDiff, and_false, ↓reduceIte,
              Nat.add_eq_right, Nat.add_sub_cancel]
            split
            · rename_i last
              subst last
              exact depth_after_close closes 0 []
            · rw [Nat.add_comm 1, List.take_succ_cons, depth_after_close closes]
              exact induction closed
      · rename_i named
        have outer : token.kind ≠ .openCurly := by simp [named]
        have inner : token.kind ≠ .closeCurly := by simp [named]
        rw [depth_after_plain outer inner] at closed
        split
        · rename_i stops
          rw [stops.1]
          rfl
        · rw [Nat.add_comm 1, List.take_succ_cons, depth_after_plain outer inner]
          exact induction closed
      · rename_i outer inner named
        rw [depth_after_plain outer inner] at closed
        rw [Nat.add_comm 1, List.take_succ_cons, depth_after_plain outer inner]
        exact induction closed

/-- Outside of all braces a closing brace is skipped like any other token, so that here nothing may
be open around the tokens. -/
theorem top_level_skip_depth {tokens : List Token} {depth : Nat} {skipped : Bool}
    (closed : depthAfter depth tokens = some 0) :
    depthAfter depth (tokens.take (topLevelSkip depth skipped tokens)) = some 0 := by
  induction tokens generalizing depth skipped with
  | nil => exact closed
  | cons token rest induction =>
      -- A token that is no brace is stepped over, or it ends the skipping outside of all braces.
      have plain (count : Nat) (outer : token.kind ≠ .openCurly) (inner : token.kind ≠ .closeCurly)
          (onward : count = topLevelSkip depth true rest ∨ depth = 0 ∧ count = 0) :
          depthAfter depth ((token :: rest).take (1 + count)) = some 0 := by
        rw [Nat.add_comm 1, List.take_succ_cons, depth_after_plain outer inner]
        rcases onward with rfl | ⟨rfl, rfl⟩
        · rw [depth_after_plain outer inner] at closed
          exact induction closed
        · rfl
      have stopping (outer : token.kind ≠ .openCurly) (inner : token.kind ≠ .closeCurly) :
          depthAfter depth ((token :: rest).take
            (if depth = 0 ∧ skipped = true then 0 else 1 + topLevelSkip depth true rest)) =
              some 0 := by
        split
        · rename_i stops
          rw [stops.1]
          rfl
        · exact plain _ outer inner (.inl rfl)
      simp only [topLevelSkip]
      split
      · rename_i separates
        split
        · exact plain 0 (by simp [separates]) (by simp [separates]) (.inr ⟨‹_›, rfl⟩)
        · exact plain _ (by simp [separates]) (by simp [separates]) (.inl rfl)
      · rename_i opens
        rw [depth_after_open opens] at closed
        rw [Nat.add_comm 1, List.take_succ_cons, depth_after_open opens]
        exact induction closed
      · rename_i closes
        cases depth with
        | zero => simp [depthAfter, closes] at closed
        | succ depth =>
            rw [depth_after_close closes] at closed
            split
            · rename_i last
              obtain rfl : depth = 0 := by omega
              exact depth_after_close closes 0 []
            · rw [Nat.add_comm 1, List.take_succ_cons, depth_after_close closes]
              exact induction closed
      · exact stopping (by simp_all) (by simp_all)
      · exact stopping (by simp_all) (by simp_all)
      · exact stopping (by simp_all) (by simp_all)
      · exact stopping (by simp_all) (by simp_all)
      · exact plain _ ‹_› ‹_› (.inl rfl)

end Parser

namespace Cursor

/-- The braces that are open in front of the tokens ahead are closed among them. -/
structure Nested (cursor : Cursor) : Prop where
  closed : cursor.Closed
  depth : ∃ depth, depthAfter depth cursor.ahead = some 0

/-- A brace that is open in front of the tokens ahead is closed among them. -/
structure Enclosed (cursor : Cursor) : Prop where
  closed : cursor.Closed
  depth : ∃ depth, depthAfter (depth + 1) cursor.ahead = some 0

/-- The second cursor stands right behind the brace that closes the innermost one that is open at
the first. -/
def Leaves (cursor after : Cursor) : Prop :=
  ∃ inner closing, cursor.ahead = inner ++ closing :: after.ahead ∧ Balanced inner ∧
    closing.kind = .closeCurly

/-- Between the two cursors every brace that is opened is closed, and none else. -/
structure Levels (cursor after : Cursor) : Prop where
  taken : ∃ tokens, cursor.ahead = tokens ++ after.ahead ∧ Balanced tokens
  close : after.close = cursor.close

namespace Levels

theorem refl (cursor : Cursor) : cursor.Levels cursor := ⟨⟨[], rfl, .nil⟩, rfl⟩

theorem trans {first second third : Cursor} (front : first.Levels second)
    (back : second.Levels third) : first.Levels third := by
  obtain ⟨begun, joined, balanced⟩ := front.taken
  obtain ⟨ended, further, even⟩ := back.taken
  refine ⟨⟨begun ++ ended, ?_, balanced.append even⟩, back.close.trans front.close⟩
  rw [joined, further, List.append_assoc]

theorem depth_eq {cursor after : Cursor} (levels : cursor.Levels after) (depth : Nat) :
    depthAfter depth cursor.ahead = depthAfter depth after.ahead := by
  obtain ⟨tokens, joined, balanced⟩ := levels.taken
  rw [joined]
  exact balanced.depth_eq depth after.ahead

end Levels

theorem Nested.after {cursor after : Cursor} (nested : cursor.Nested)
    (levels : cursor.Levels after) : after.Nested := by
  obtain ⟨depth, ends⟩ := nested.depth
  obtain ⟨tokens, joined, _⟩ := levels.taken
  refine ⟨⟨?_, ?_⟩, depth, levels.depth_eq depth ▸ ends⟩
  · rw [levels.close]
    exact nested.closed.close
  · intro token member
    apply nested.closed.ahead
    rw [joined]
    exact List.mem_append_right _ member

theorem ahead_of_kind {cursor : Cursor} (closed : cursor.Closed) {kind : TokenKind}
    (found : cursor.kind = kind) (open_ : kind ≠ .endOfFile) :
    ∃ token rest, cursor.ahead = token :: rest ∧ token.kind = kind := by
  cases ahead : cursor.ahead with
  | nil => exact absurd (found ▸ closed.kind_eq_iff.mpr ahead) open_
  | cons token rest => exact ⟨token, rest, rfl, by simpa [Cursor.kind, current, ahead] using found⟩

theorem ahead_step {cursor : Cursor} {token : Token} {rest : List Token}
    (ahead : cursor.ahead = token :: rest) : cursor.step.ahead = rest := by
  simp [step, ahead]

theorem close_step (cursor : Cursor) : cursor.step.close = cursor.close := by
  cases ahead : cursor.ahead <;> simp [step, ahead]

theorem Nested.enclosed_step {cursor : Cursor} (nested : cursor.Nested)
    (opens : cursor.kind = .openCurly) : cursor.step.Enclosed := by
  obtain ⟨opening, rest, ahead, found⟩ := ahead_of_kind nested.closed opens (by decide)
  obtain ⟨depth, ends⟩ := nested.depth
  rw [ahead, depth_after_open found] at ends
  exact ⟨nested.closed.after cursor.reaches_step, depth, by rw [ahead_step ahead]; exact ends⟩

theorem Enclosed.nested {cursor : Cursor} (enclosed : cursor.Enclosed) : cursor.Nested := by
  obtain ⟨depth, ends⟩ := enclosed.depth
  exact ⟨enclosed.closed, depth + 1, ends⟩

/-- The closing brace is there, so that what goes on up to it or to the end stops before it. -/
theorem Enclosed.leaves {cursor last : Cursor} (enclosed : cursor.Enclosed)
    (levels : cursor.Levels last) (stops : last.kind = .closeCurly ∨ last.kind = .endOfFile) :
    last.kind = .closeCurly ∧ cursor.Leaves last.step := by
  have nested := enclosed.nested.after levels
  obtain ⟨depth, ends⟩ := enclosed.depth
  rw [levels.depth_eq] at ends
  have closes : last.kind = .closeCurly := by
    rcases stops with closes | ended
    · exact closes
    · rw [nested.closed.kind_eq_iff.mp ended] at ends
      simp [depthAfter] at ends
  obtain ⟨closing, rest, ahead, found⟩ := ahead_of_kind nested.closed closes (by decide)
  obtain ⟨inner, joined, balanced⟩ := levels.taken
  refine ⟨closes, inner, closing, ?_, balanced, found⟩
  rw [joined, ahead, ahead_step ahead]

theorem levels_of_leaves {cursor after : Cursor} (closed : cursor.Closed)
    (opens : cursor.kind = .openCurly) (leaves : cursor.step.Leaves after)
    (close : after.close = cursor.close) : cursor.Levels after := by
  obtain ⟨opening, rest, ahead, found⟩ := ahead_of_kind closed opens (by decide)
  obtain ⟨inner, closing, joined, balanced, closes⟩ := leaves
  refine ⟨⟨opening :: (inner ++ [closing]), ?_, balanced.braced found closes⟩, close⟩
  rw [ahead_step ahead] at joined
  rw [ahead, joined]
  simp

theorem ahead_skip (cursor : Cursor) (count : Nat) :
    (cursor.skip count).ahead = cursor.ahead.drop count := by
  induction count generalizing cursor with
  | zero => rfl
  | succ count induction =>
      rw [skip, induction]
      cases ahead : cursor.ahead <;> simp [step, ahead]

theorem levels_skip {cursor : Cursor} {count : Nat} (balanced : Balanced (cursor.ahead.take count)) :
    cursor.Levels (cursor.skip count) where
  taken := ⟨_, by rw [ahead_skip, List.take_append_drop], balanced⟩
  close := (cursor.reaches_skip count).close

end Cursor

end Lsl
