import Lsl.Proofs.Parsing.Deriving
import Lsl.Proofs.Parsing.Operands

/-!
The reader of expressions accepts exactly the well-precedenced expressions, written as their words,
and gives the expression that was written.
-/

set_option autoImplicit false

namespace Lsl

namespace Expr

section

open Lsl.Parser

variable {close : Token} {expr : Expr} {power : Power} {fuel : Nat} {tokens rest : List Token}

theorem bound_of_assignable (assignable : expr.isAssignable = true) :
    expr.bound = Power.member.rank ∧ expr.isBinary = false := by
  cases expr <;> first | exact ⟨rfl, rfl⟩ | cases assignable

theorem assignable_of_bare {found : Expr} (same : found.bare = expr.bare) :
    found.isAssignable = expr.isAssignable := by
  rw [← is_assignable_bare found, same, is_assignable_bare]

theorem reference_of_bare {found : Expr} (same : found.bare = expr.bare) :
    found.isReference = expr.isReference := by
  rw [← is_reference_bare found, same, is_reference_bare]

section Extension

variable {left : Expr} {steps : Nat} {token : Token} {last : List Token} {property : Expr → Prop}

theorem gives_member {name : Token} {part : Component} (reference : left.isReference = true)
    (dotted : token.kind = .dot) (named : name.kind = .identifier) (text : name.text = part.name)
    (low : power.rank ≤ Power.unary.rank)
    (onward : ∀ info, Gives close (extendWithin steps power (.component info part left)) rest last
      property) :
    Gives close (extendWithin (steps + 1) power left) (token :: name :: rest) last property := by
  rw [extendWithin]
  apply Gives.peek_bind
  intro cursor current
  have kind : cursor.kind = .dot := by rw [Cursor.kind, current]; exact dotted
  have binds : ¬TokenKind.dot.power.rank ≤ power.rank :=
    Nat.not_le.mpr (Nat.lt_of_le_of_lt low (by decide))
  rw [kind, if_neg binds]
  have known : Component.ofName? name.text = some part := by rw [text]; cases part <;> rfl
  simp only [memberBehind, if_pos reference, componentName, bind_assoc]
  apply Gives.bind Gives.next
  intro _ _
  apply Gives.bind (Gives.expect named)
  intro found same
  rw [same, known]
  exact onward _

theorem gives_step {operator : PostfixOperator} (assignable : left.isAssignable = true)
    (found : token.kind = operator.kind) (low : power.rank ≤ Power.unary.rank)
    (onward : ∀ info, Gives close (extendWithin steps power (.postfixed info operator left)) rest
      last property) :
    Gives close (extendWithin (steps + 1) power left) (token :: rest) last property := by
  rw [extendWithin]
  apply Gives.peek_bind
  intro cursor current
  have kind : cursor.kind = operator.kind := by rw [Cursor.kind, current]; exact found
  have binds : ¬operator.kind.power.rank ≤ power.rank :=
    Nat.not_le.mpr (Nat.lt_of_le_of_lt low (by cases operator <;> decide))
  rw [kind, if_neg binds]
  cases operator <;>
    · simp only [PostfixOperator.kind, stepBehind, if_pos assignable, bind_assoc, pure_bind]
      apply Gives.bind Gives.next
      intro _ _
      exact onward _

theorem gives_operation {operator : BinaryOperator} {right : Expr} {middle : List Token}
    (found : token.kind = operator.kind) (binds : power.rank < operator.power.rank)
    (admitted : operator.isAssignment = true → left.isAssignable = true)
    (reads : Gives close
      (expressionWithin steps (if operator.isAssignment then .lowest else operator.power))
      middle rest (·.bare = right.bare))
    (onward : ∀ info other, other.bare = right.bare →
      Gives close (extendWithin steps power (.binary info operator left other)) rest last
        property) :
    Gives close (extendWithin (steps + 1) power left) (token :: middle) last property := by
  rw [extendWithin]
  apply Gives.peek_bind
  intro cursor current
  have kind : cursor.kind = operator.kind := by rw [Cursor.kind, current]; exact found
  have power : operator.kind.power = operator.power := by cases operator <;> rfl
  rw [kind, power, if_neg (Nat.not_le.mpr binds)]
  have fine : ¬(operator.isAssignment && !left.isAssignable) = true := by
    cases assigns : operator.isAssignment with
    | false => simp
    | true => simp [admitted assigns]
  split
  case h_1 step => cases operator <;> cases step
  case h_2 step => cases operator <;> cases step
  case h_3 dot => cases operator <;> cases dot
  case h_4 =>
    simp only [binary_operator_kind, if_neg fine]
    apply Gives.bind Gives.next
    intro _ _
    apply Gives.bind reads
    intro other same
    exact onward _ other same

end Extension

theorem Parses.component {target : Expr} (parses : target.Parses close)
    (reference : target.isReference = true) (info : ExprInfo) (part : Component) :
    (component info part target).Parses close := by
  intro power fuel tokens rest last property low tight enough opens stops onward
  simp only [words, turns, List.length_append, List.length_cons] at enough opens onward
  obtain ⟨_, within, behind⟩ := Opens.append_iff.mp opens
  obtain ⟨dot, _, rfl, (dotted : dot.kind = .dot), behind⟩ := Opens.cons_iff.mp behind
  obtain ⟨name, _, rfl, ⟨named, text⟩, behind⟩ := Opens.cons_iff.mp behind
  obtain rfl := Opens.nil_iff.mp behind
  have assignable : target.isAssignable = true := by
    cases target <;> first | rfl | cases reference
  obtain ⟨widest, plain⟩ := bound_of_assignable assignable
  have short := turns_le_length target
  apply parses power fuel _ _ _ _ low (rank_lt_level plain power) (by omega) within
    ⟨by rw [upcoming_cons, dotted]; decide, by rw [upcoming_cons, dotted, widest]; decide⟩
  intro left same
  obtain ⟨steps, fuelLeft⟩ : ∃ steps, fuel - target.turns = steps + 1 :=
    ⟨fuel - target.turns - 1, by omega⟩
  rw [fuelLeft]
  apply gives_member ((reference_of_bare same).trans reference) dotted named text low
  intro info
  have spent : steps = fuel - (target.turns + 1) := by omega
  rw [spent]
  exact onward _ (by simp only [bare, same])

theorem Parses.postfixed {operand : Expr} (parses : operand.Parses close)
    (assignable : operand.isAssignable = true) (info : ExprInfo) (operator : PostfixOperator) :
    (postfixed info operator operand).Parses close := by
  intro power fuel tokens rest last property low tight enough opens stops onward
  simp only [words, turns, List.length_append, List.length_cons] at enough opens onward
  obtain ⟨_, within, behind⟩ := Opens.append_iff.mp opens
  obtain ⟨token, _, rfl, (found : token.kind = operator.kind), behind⟩ := Opens.cons_iff.mp behind
  obtain rfl := Opens.nil_iff.mp behind
  obtain ⟨widest, plain⟩ := bound_of_assignable assignable
  have short := turns_le_length operand
  apply parses power fuel _ _ _ _ low (rank_lt_level plain power) (by omega) within
    ⟨by rw [upcoming_cons, found]; cases operator <;> decide,
      by rw [upcoming_cons, found, widest]; cases operator <;> decide⟩
  intro left same
  obtain ⟨steps, fuelLeft⟩ : ∃ steps, fuel - operand.turns = steps + 1 :=
    ⟨fuel - operand.turns - 1, by omega⟩
  rw [fuelLeft]
  apply gives_step ((assignable_of_bare same).trans assignable) found low
  intro info
  have spent : steps = fuel - (operand.turns + 1) := by omega
  rw [spent]
  exact onward _ (by simp only [bare, same])

/-- The right operand of an operator is read up to where the operation ends. -/
theorem Parses.right {left right : Expr} {operator : BinaryOperator} {info : ExprInfo}
    (parses : right.Parses close)
    (shaped : if operator.isAssignment then left.isAssignable = true
      else operator.power.rank ≤ left.level ∧ operator.power.rank < right.level)
    (enough : 4 * right.words.length + 5 ≤ fuel) (opens : Opens right.words tokens rest)
    (stops : (binary info operator left right).Stops (upcoming close rest)) :
    Gives close (expressionWithin fuel (if operator.isAssignment then .lowest else operator.power))
      tokens rest (·.bare = right.bare) := by
  have loose := stops.rank
  rw [bound] at loose
  by_cases assigns : operator.isAssignment
  · rw [if_pos assigns] at loose ⊢
    exact parses.expression (by decide) (level_pos right) enough opens stops.call loose
  · rw [if_neg assigns] at loose shaped ⊢
    have low : operator.power.rank ≤ Power.unary.rank :=
      Nat.le_trans (rank_le_multiplicative operator) (by decide)
    exact parses.expression low shaped.2 enough opens stops.call loose

theorem Parses.binary {left right : Expr} (first : left.Parses close) (second : right.Parses close)
    {operator : BinaryOperator}
    (shaped : if operator.isAssignment then left.isAssignable = true
      else operator.power.rank ≤ left.level ∧ operator.power.rank < right.level)
    (info : ExprInfo) : (binary info operator left right).Parses close := by
  intro power fuel tokens rest last property low tight enough opens stops onward
  simp only [words, turns, List.length_append, List.length_cons] at enough opens onward
  obtain ⟨_, inLeft, behind⟩ := Opens.append_iff.mp opens
  obtain ⟨token, middle, rfl, (found : token.kind = operator.kind), inRight⟩ :=
    Opens.cons_iff.mp behind
  have binds : power.rank < operator.power.rank := tight
  have rank : operator.kind.power = operator.power := by cases operator <;> rfl
  have short := turns_le_length left
  obtain ⟨below, follows⟩ :
      power.rank < left.level ∧ operator.power.rank ≤ left.bound := by
    split at shaped
    · obtain ⟨widest, plain⟩ := bound_of_assignable shaped
      rw [widest]
      exact ⟨rank_lt_level plain power, Nat.le_of_lt_succ operator.power.rank_lt⟩
    · rename_i assigns
      exact ⟨Nat.lt_of_lt_of_le binds shaped.1,
        operator_rank_le_bound (by simpa using assigns) shaped.1⟩
  obtain ⟨steps, fuelLeft⟩ : ∃ steps, fuel - left.turns = steps + 1 :=
    ⟨fuel - left.turns - 1, by omega⟩
  have reads := second.right shaped (show 4 * right.words.length + 5 ≤ steps by omega) inRight stops
  apply first power fuel _ _ _ _ low below (by omega) inLeft
    ⟨by rw [upcoming_cons, found]; cases operator <;> decide,
      by rw [upcoming_cons, found, rank]; exact follows⟩
  intro started same
  rw [fuelLeft]
  refine gives_operation found binds ?_ reads ?_
  · intro assigns
    rw [if_pos assigns] at shaped
    exact (assignable_of_bare same).trans shaped
  · intro info other alike
    have spent : steps = fuel - (left.turns + 1) := by omega
    rw [spent]
    exact onward _ (by simp only [bare, same, alike])

/-- Every well-precedenced expression is read from its words. -/
theorem parses_of_precedenced (expr : Expr) (shaped : expr.isPrecedenced = true) :
    expr.Parses close := by
  induction expr using parts_induction with
  | step expr parts =>
      cases expr with
      | integer | hex | float | string => exact parses_literal rfl
      | reference info name binding => exact parses_reference info name binding
      | vector info x y z =>
          simp only [isPrecedenced, Bool.and_eq_true, decide_eq_true_eq] at shaped
          obtain ⟨⟨⟨first, second⟩, third⟩, tight⟩ := shaped
          exact parses_vector (parts x (by simp [Expr.parts]) first)
            (parts y (by simp [Expr.parts]) second) (parts z (by simp [Expr.parts]) third)
            tight info
      | rotation info x y z s =>
          simp only [isPrecedenced, Bool.and_eq_true, decide_eq_true_eq] at shaped
          obtain ⟨⟨⟨⟨⟨first, second⟩, third⟩, tight⟩, fourth⟩, narrow⟩ := shaped
          exact parses_rotation (parts x (by simp [Expr.parts]) first)
            (parts y (by simp [Expr.parts]) second) (parts z (by simp [Expr.parts]) third)
            (parts s (by simp [Expr.parts]) fourth) tight narrow info
      | list info inner elements =>
          refine parses_list (fun expr member => parts expr member ?_) info inner
          exact all_precedenced_iff.mp shaped expr member
      | call info name inner arguments target =>
          refine parses_call (fun expr member => parts expr member ?_) info name inner target
          exact all_precedenced_iff.mp shaped expr member
      | binary info operator left right =>
          simp only [isPrecedenced, Bool.and_eq_true] at shaped
          obtain ⟨⟨first, second⟩, fits⟩ := shaped
          refine (parts left (by simp [Expr.parts]) first).binary
            (parts right (by simp [Expr.parts]) second) ?_ info
          split <;> simp_all
      | prefixed info operator operand =>
          simp only [isPrecedenced, Bool.and_eq_true, Bool.not_eq_true'] at shaped
          exact (parts operand (by simp [Expr.parts]) shaped.1).prefixed shaped.2 info operator
      | postfixed info operator operand =>
          simp only [isPrecedenced, Bool.and_eq_true] at shaped
          exact (parts operand (by simp [Expr.parts]) shaped.1).postfixed shaped.2 info operator
      | cast info target operand =>
          simp only [isPrecedenced, Bool.and_eq_true, Bool.not_eq_true'] at shaped
          exact (parts operand (by simp [Expr.parts]) shaped.1).cast shaped.2 info target
      | grouped info inner => exact (parts inner (by simp [Expr.parts]) shaped).grouped info
      | component info part target =>
          simp only [isPrecedenced, Bool.and_eq_true] at shaped
          exact (parts target (by simp [Expr.parts]) shaped.1).component shaped.2 info part

end

end Expr

theorem Parser.expect_eq (kind : TokenKind) (cursor : Cursor) :
    Parser.expect kind cursor =
      if cursor.kind = kind then .ok cursor.current cursor.step
      else .error (cursor.mismatch kind.grammarName) cursor := by
  change (if cursor.kind = kind then Parser.next else Parser.mismatched _) cursor = _
  split <;> rfl

/-- A whole token list is an expression if reading one comes to the closing token. -/
theorem parse_expression_eq_ok_iff {tokens : List Token} {expr : Expr} :
    parseExpression tokens = .ok expr ↔
      ∃ after, Parser.expression (.ofTokens tokens) = .ok expr after ∧ after.kind = .endOfFile := by
  unfold parseExpression
  simp only [Bind.bind, EStateM.bind]
  cases Parser.expression (.ofTokens tokens) with
  | error error after => simp
  | ok found after =>
      by_cases ends : after.kind = .endOfFile
      · simp [Parser.expect_eq, ends, Pure.pure, EStateM.pure]
      · simp [Parser.expect_eq, ends]

theorem parse_expression_of_spells {tokens : List Token} {expr : Expr}
    (shaped : expr.isPrecedenced = true)
    (spelled : Spells expr.words (tokens.takeWhile (·.kind != .endOfFile))) :
    ∃ found, parseExpression tokens = .ok found ∧ found.bare = expr.bare := by
  have closed := Cursor.closed_of_tokens tokens
  have short := spelled.length
  have enough : 4 * expr.words.length + 5 ≤ (Cursor.ofTokens tokens).budget := by
    simp only [Cursor.budget, Cursor.ofTokens]
    omega
  have ends : Parser.upcoming (Cursor.ofTokens tokens).close [] = .endOfFile := closed.close
  obtain ⟨found, after, read, ahead, close, same⟩ :=
    (Expr.parses_of_precedenced expr shaped).expression (by decide) expr.level_pos enough
      (Opens.to_end_iff.mpr spelled) (by rw [ends]; decide) (by rw [ends]; decide)
      (.ofTokens tokens) rfl rfl
  refine ⟨found, parse_expression_eq_ok_iff.mpr ⟨after, read, ?_⟩, same⟩
  rw [Cursor.kind, Cursor.current, ahead, close, List.headD_nil, closed.close]

theorem spells_of_parse_expression {tokens : List Token} {found : Expr}
    (parsed : parseExpression tokens = .ok found) :
    found.isPrecedenced = true ∧
      Spells found.words (tokens.takeWhile (·.kind != .endOfFile)) := by
  obtain ⟨after, read, ends⟩ := parse_expression_eq_ok_iff.mp parsed
  have closed := Cursor.closed_of_tokens tokens
  have runs := (Parser.Derives.expression closed.close).ok read
  have opens := (runs.takes closed.close).1
  rw [(closed.after runs.passes.reaches).kind_eq_iff.mp ends] at opens
  exact ⟨runs.sound.1.precedenced, Opens.to_end_iff.mp opens⟩

/-- The reader of expressions accepts exactly the well-precedenced expressions: a token list is read
as an expression if and only if the expression is well-precedenced and the tokens in front of the
closing one are its words. -/
theorem parse_expression_iff (tokens : List Token) (expr : Expr) :
    (∃ found, parseExpression tokens = .ok found ∧ found.bare = expr.bare) ↔
      expr.isPrecedenced = true ∧
        Spells expr.words (tokens.takeWhile (·.kind != .endOfFile)) := by
  constructor
  · rintro ⟨found, parsed, same⟩
    obtain ⟨shaped, spelled⟩ := spells_of_parse_expression parsed
    rw [← expr.is_precedenced_bare, ← expr.words_bare, ← same, found.is_precedenced_bare,
      found.words_bare]
    exact ⟨shaped, spelled⟩
  · rintro ⟨shaped, spelled⟩
    exact parse_expression_of_spells shaped spelled

end Lsl
