import Lsl.Proofs.Arena.Mirroring

/-!
Expressions are planted as they are read. The node of an expression takes those of its operands; the
elements of a list and the arguments of a call stand below a node of their own.
-/

set_option autoImplicit false

namespace Lsl

open Lsl.Parser (Grants)

namespace Planter

namespace Mirrors

theorem step_behind {left : Planted Expr} {operator : PostfixOperator}
    (own : left.roots.map Root.node = [.expr left.value]) :
    Mirrors (fun value => [.expr value]) left.roots (Planter.stepBehind left operator)
      (Parser.stepBehind left.value operator) := by
  apply read_grow
  unfold Parser.stepBehind
  split
  · exact Grants.bind .next fun _ => Grants.pure ⟨rfl, own⟩
  · exact Grants.mismatched

theorem member_behind {left : Planted Expr} (own : left.roots.map Root.node = [.expr left.value]) :
    Mirrors (fun value => [.expr value]) left.roots (Planter.memberBehind left)
      (Parser.memberBehind left.value) := by
  apply read_grow
  unfold Parser.memberBehind
  split
  · exact Grants.bind .next fun _ => Grants.bind .component_name fun _ => Grants.pure ⟨rfl, own⟩
  · exact Grants.mismatched

/-- The planters of expressions at one bound on their steps. -/
structure Expressions (fuel : Nat) : Prop where
  expression : ∀ power, Mirrors (fun value => [.expr value]) []
    (Planter.expressionWithin fuel power) (Parser.expressionWithin fuel power)
  extend : ∀ power (left : Planted Expr), left.roots.map Root.node = [.expr left.value] →
    Mirrors (fun value => [.expr value]) left.roots (Planter.extendWithin fuel power left)
      (Parser.extendWithin fuel power left.value)
  operand : Mirrors (fun value => [.expr value]) [] (Planter.operandWithin fuel)
    (Parser.operandWithin fuel)
  list : ∀ role terminator, Mirrors (fun list => [.exprList role list]) []
    (Planter.listWithin fuel role terminator) (Parser.listWithin fuel terminator)
  members : Mirrors (List.map Node.expr) [] (Planter.membersWithin fuel)
    (Parser.membersWithin fuel)

section Step

variable {fuel : Nat} (before : Expressions fuel)

include before

theorem expression_succ (power : Power) :
    Mirrors (fun value => [.expr value]) [] (Planter.expressionWithin (fuel + 1) power)
      (Parser.expressionWithin (fuel + 1) power) := by
  rw [Planter.expressionWithin, Parser.expressionWithin]
  exact bind before.operand fun left own => before.extend power left own

theorem extend_succ (power : Power) (left : Planted Expr)
    (own : left.roots.map Root.node = [.expr left.value]) :
    Mirrors (fun value => [.expr value]) left.roots (Planter.extendWithin (fuel + 1) power left)
      (Parser.extendWithin (fuel + 1) power left.value) := by
  rw [Planter.extendWithin, Parser.extendWithin]
  apply read_bind .peek
  intro cursor
  split
  · exact pure own
  · generalize cursor.kind = kind
    split
    case h_1 | h_2 => exact bind (step_behind own) fun stepped own => before.extend power stepped own
    case h_3 => exact bind (member_behind own) fun part own => before.extend power part own
    case h_4 =>
      -- Both sides match on one kind, which is none of those above.
      try simp only
      cases kind.binaryOperator? with
      | none => exact pure own
      | some operator =>
          simp only
          split
          · exact mismatched
          · apply read_bind .next
            intro _
            apply past (before.expression _)
            intro right behind
            apply grow_bind rfl (by simp [own, behind, Node.children, Expr.children, Expr.parts])
            exact fun id => before.extend power ⟨_, [⟨id, _⟩]⟩ rfl

theorem operand_succ :
    Mirrors (fun value => [.expr value]) [] (Planter.operandWithin (fuel + 1))
      (Parser.operandWithin (fuel + 1)) := by
  rw [Planter.operandWithin, Parser.operandWithin]
  apply read_bind .peek
  intro cursor
  simp only
  generalize cursor.current.kind = kind
  split
  case h_1 | h_2 | h_3 | h_4 => exact read_bind .next fun _ => grow rfl rfl
  case h_5 =>
    apply read_bind .next
    intro _
    apply read_bind .accept
    intro called
    split
    · apply bind (before.list _ _)
      intro arguments inside
      apply read_bind .expect
      intro _
      exact read_bind .span_from fun _ => grow rfl inside
    · exact grow rfl rfl
  case h_6 =>
    apply read_bind .next
    intro _
    apply read_bind .peek
    intro behind
    split
    · apply read_bind .type
      intro target
      apply read_bind .expect
      intro _
      apply bind (before.expression _)
      intro operand inside
      exact read_bind .span_from fun _ => grow rfl inside
    · apply bind (before.expression _)
      intro inner inside
      apply read_bind .expect
      intro _
      exact read_bind .span_from fun _ => grow rfl inside
  case h_7 =>
    apply read_bind .next
    intro _
    apply bind (before.list _ _)
    intro elements inside
    apply read_bind .expect
    intro _
    exact read_bind .span_from fun _ => grow rfl inside
  case h_8 =>
    apply read_bind .next
    intro _
    apply bind (before.expression _)
    intro x first
    apply read_bind .expect
    intro _
    apply past (before.expression _)
    intro y second
    apply read_bind .expect
    intro _
    apply past (before.expression _)
    intro z third
    apply read_bind .accept
    intro closed
    split
    · apply read_bind .span_from
      intro _
      exact grow rfl (by simp [first, second, third, Node.children, Expr.children, Expr.parts])
    · apply read_bind .accept
      intro longer
      split
      · apply past (before.expression _)
        intro s fourth
        apply read_bind .expect
        intro _
        apply read_bind .span_from
        intro _
        exact grow rfl
          (by simp [first, second, third, fourth, Node.children, Expr.children, Expr.parts])
      · exact mismatched
  case h_9 =>
    try simp only
    cases kind.prefixOperator? with
    | none => exact mismatched
    | some operator =>
        apply read_bind .next
        intro _
        apply bind (before.expression _)
        intro operand inside
        exact grow rfl inside

theorem list_succ (role : ListRole) (terminator : TokenKind) :
    Mirrors (fun list => [.exprList role list]) []
      (Planter.listWithin (fuel + 1) role terminator)
      (Parser.listWithin (fuel + 1) terminator) := by
  rw [Planter.listWithin, Parser.listWithin]
  apply read_bind .peek
  intro cursor
  split
  · exact grow rfl rfl
  · apply bind before.members
    intro members inside
    exact read_bind .span_from fun _ => grow rfl inside

theorem members_succ :
    Mirrors (List.map Node.expr) [] (Planter.membersWithin (fuel + 1))
      (Parser.membersWithin (fuel + 1)) := by
  rw [Planter.membersWithin, Parser.membersWithin]
  apply bind (before.expression _)
  intro first own
  apply read_bind .accept
  intro comma
  split
  · apply past before.members
    intro rest others
    exact pure (by simp [own, others])
  · exact pure own

end Step

theorem expressions (fuel : Nat) : Expressions fuel := by
  induction fuel with
  | zero =>
      exact ⟨fun _ => mismatched, fun _ _ _ => mismatched, mismatched, fun _ _ => mismatched,
        mismatched⟩
  | succ fuel before =>
      exact ⟨expression_succ before, extend_succ before, operand_succ before, list_succ before,
        members_succ before⟩

theorem expression : Mirrors (fun value => [.expr value]) [] Planter.expression
    Parser.expression := by
  unfold Planter.expression Parser.expression
  exact read_bind .peek fun cursor => (expressions cursor.budget).expression _

theorem expression_list {role : ListRole} {terminator : TokenKind} :
    Mirrors (fun list => [.exprList role list]) [] (Planter.expressionList role terminator)
      (Parser.expressionList terminator) := by
  unfold Planter.expressionList Parser.expressionList
  exact read_bind .peek fun cursor => (expressions cursor.budget).list _ _

end Mirrors

end Planter

end Lsl
