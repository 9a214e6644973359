import Lsl.Proofs.Parsing.Phrases

/-!
The shape of expressions that are read. Every operator binds its operands as its power says, and
the tokens that were taken are the words of the expression.
-/

set_option autoImplicit false

namespace Lsl

theorem Power.rank_lt (power : Power) : power.rank < Power.member.rank + 1 := by
  cases power <;> decide

namespace Expr

/-- The rank of the operator between two operands; an expression without one ranks above all. -/
def level : Expr → Nat
  | binary _ operator _ _ => operator.power.rank
  | _ => Power.member.rank + 1

def isBinary : Expr → Bool
  | binary _ _ _ _ => true
  | _ => false

mutual

/-- Operands bind more tightly than the operators around them. Of operators of one rank the left one
comes first, and what is assigned to is a variable or a component. -/
def isPrecedenced : Expr → Bool
  | integer _ _ => true
  | hex _ _ => true
  | float _ _ => true
  | string _ _ => true
  | vector _ x y z =>
    x.isPrecedenced && y.isPrecedenced && z.isPrecedenced && Power.relational.rank < z.level
  | rotation _ x y z s =>
    x.isPrecedenced && y.isPrecedenced && z.isPrecedenced && Power.relational.rank < z.level &&
      s.isPrecedenced && Power.relational.rank < s.level
  | list _ _ elements => allPrecedenced elements
  | reference _ _ _ => true
  | call _ _ _ arguments _ => allPrecedenced arguments
  | binary _ operator left right =>
    left.isPrecedenced && right.isPrecedenced &&
      if operator.isAssignment then left.isAssignable
      else operator.power.rank ≤ left.level && operator.power.rank < right.level
  | prefixed _ _ operand => operand.isPrecedenced && !operand.isBinary
  | postfixed _ _ operand => operand.isPrecedenced && operand.isAssignable
  | cast _ _ operand => operand.isPrecedenced && !operand.isBinary
  | grouped _ inner => inner.isPrecedenced
  | component _ _ target => target.isPrecedenced && target.isReference

def allPrecedenced : List Expr → Bool
  | [] => true
  | expr :: rest => expr.isPrecedenced && allPrecedenced rest

end

theorem all_precedenced_iff {exprs : List Expr} :
    allPrecedenced exprs = true ↔ ∀ expr ∈ exprs, expr.isPrecedenced = true := by
  induction exprs with
  | nil => simp [allPrecedenced]
  | cons expr rest induction => simp [allPrecedenced, induction]

structure Sound (expr : Expr) : Prop where
  precedenced : expr.isPrecedenced = true
  clean : expr.hasErrors = false

/-- Expressions as the readers build them. -/
structure AllSound (exprs : List Expr) : Prop where
  precedenced : allPrecedenced exprs = true
  clean : listHasErrors exprs = false

theorem rank_le_multiplicative (operator : BinaryOperator) : operator.power.rank ≤ 10 := by
  cases operator <;> decide

/-- Nothing but operators between two operands ranks below a prefix. -/
theorem not_binary_of_level {expr : Expr} (tight : Power.unary.rank < expr.level) :
    expr.isBinary = false := by
  cases expr with
  | binary info operator left right =>
      have low := rank_le_multiplicative operator
      have high : 11 < operator.power.rank := tight
      omega
  | _ => rfl

theorem rank_lt_level {expr : Expr} (plain : expr.isBinary = false) (power : Power) :
    power.rank < expr.level := by
  cases expr with
  | binary => cases plain
  | _ => exact power.rank_lt

end Expr

theorem TokenKind.power_of_binary_operator {kind : TokenKind} {operator : BinaryOperator}
    (found : kind.binaryOperator? = some operator) : kind.power = operator.power := by
  unfold TokenKind.power
  split
  · cases found
  · cases found
  · cases found
  · rw [found]

theorem Component.name_of_of_name {text : String} {part : Component}
    (named : Component.ofName? text = some part) : part.name = text := by
  unfold Component.ofName? at named
  split at named <;> cases named <;> rfl

/-- What is known of the expressions of a phrase: those in an expression bind more tightly than the
given power, and the token behind them does not. -/
def Phrase.Sound (phrase : Phrase) (after : Cursor) : Prop :=
  match phrase with
  | expression power expr =>
    expr.Sound ∧ power.rank < expr.level ∧ after.kind.power.rank ≤ power.rank
  | chain power expr =>
    expr.Sound ∧ power.rank < expr.level ∧ after.kind.power.rank ≤ expr.level
  | operand expr => expr.Sound ∧ expr.isBinary = false
  | phrase => ∀ expr ∈ phrase.exprs, expr.Sound

namespace Expr

theorem AllSound.of_forall {exprs : List Expr} (sound : ∀ expr ∈ exprs, expr.Sound) :
    AllSound exprs where
  precedenced := all_precedenced_iff.mpr fun expr member => (sound expr member).precedenced
  clean := list_has_errors_iff.mpr fun expr member => (sound expr member).clean

theorem Sound.of_literal {token : Token} {expr : Expr} (known : token.literal? = some expr) :
    expr.Sound ∧ expr.isBinary = false := by
  unfold Token.literal? at known
  split at known
  case h_5 => cases known
  all_goals
    cases known
    exact ⟨⟨rfl, rfl⟩, rfl⟩

end Expr

theorem Phrase.Runs.sound {phrase : Phrase} {cursor after : Cursor}
    (runs : phrase.Runs cursor after) : phrase.Sound after := by
  -- What is no operator between two operands may be followed by any operator.
  have operand {power : Power} {expr : Expr} {place : Cursor} (sound : expr.Sound)
      (plain : expr.isBinary = false) : (Phrase.chain power expr).Sound place :=
    ⟨sound, Expr.rank_lt_level plain power, Nat.le_of_lt (Expr.rank_lt_level plain _)⟩
  have single {expr : Expr} (sound : expr.Sound) : ∀ found ∈ [expr], found.Sound := by
    intro found member
    rw [List.mem_singleton.mp member]
    exact sound
  induction runs with
  | expression _ stops chain => exact ⟨chain.1, chain.2.1, stops⟩
  | first _ inner => exact operand inner.1 inner.2
  | step _ _ _ assignable left =>
      obtain ⟨sound, _⟩ := left
      refine operand ⟨?_, ?_⟩ rfl
      · simp [Expr.isPrecedenced, sound.precedenced, assignable]
      · simp [Expr.hasErrors, sound.clean]
  | component _ _ reference _ _ left =>
      obtain ⟨sound, _⟩ := left
      refine operand ⟨?_, ?_⟩ rfl
      · simp [Expr.isPrecedenced, sound.precedenced, reference]
      · simp [Expr.hasErrors, sound.clean]
  | @binary _ left right operator _ _ _ _ binds found admitted _ before behind =>
      obtain ⟨sound, _, loose⟩ := before
      obtain ⟨inner, above, stops⟩ := behind
      rw [TokenKind.power_of_binary_operator found] at binds loose
      refine ⟨⟨?_, by simp [Expr.hasErrors, sound.clean, inner.clean]⟩, binds, ?_⟩
      · by_cases assigns : operator.isAssignment
        · simp [Expr.isPrecedenced, sound.precedenced, inner.precedenced, assigns,
            admitted assigns]
        · simp only [assigns, Bool.false_eq_true, if_false] at above
          simp [Expr.isPrecedenced, sound.precedenced, inner.precedenced, assigns, loose, above]
      · by_cases assigns : operator.isAssignment
        · simp only [assigns, if_true] at stops
          exact Nat.le_trans stops (Nat.zero_le _)
        · simpa [Expr.level, assigns] using stops
  | literal known => exact Expr.Sound.of_literal known
  | reference => exact ⟨⟨rfl, rfl⟩, rfl⟩
  | call _ _ _ _ inner =>
      have sound := Expr.AllSound.of_forall inner
      exact ⟨⟨sound.precedenced, sound.clean⟩, rfl⟩
  | cast _ _ _ _ _ inner =>
      obtain ⟨sound, above, _⟩ := inner
      refine ⟨⟨?_, sound.clean⟩, rfl⟩
      simp [Expr.isPrecedenced, sound.precedenced, Expr.not_binary_of_level above]
  | grouped _ _ _ inner => exact ⟨⟨inner.1.precedenced, inner.1.clean⟩, rfl⟩
  | elements _ _ _ inner =>
      have sound := Expr.AllSound.of_forall inner
      exact ⟨⟨sound.precedenced, sound.clean⟩, rfl⟩
  | vector _ _ _ _ _ _ _ one two three =>
      obtain ⟨third, above, _⟩ := three
      refine ⟨⟨?_, ?_⟩, rfl⟩
      · simp [Expr.isPrecedenced, one.1.precedenced, two.1.precedenced, third.precedenced, above]
      · simp [Expr.hasErrors, one.1.clean, two.1.clean, third.clean]
  | rotation _ _ _ _ _ _ _ _ _ one two three four =>
      obtain ⟨third, above, _⟩ := three
      obtain ⟨fourth, tight, _⟩ := four
      refine ⟨⟨?_, ?_⟩, rfl⟩
      · simp [Expr.isPrecedenced, one.1.precedenced, two.1.precedenced, third.precedenced,
          fourth.precedenced, above, tight]
      · simp [Expr.hasErrors, one.1.clean, two.1.clean, third.clean, fourth.clean]
  | prefixed _ _ inner =>
      obtain ⟨sound, above, _⟩ := inner
      refine ⟨⟨?_, ?_⟩, rfl⟩
      · simp [Expr.isPrecedenced, sound.precedenced, Expr.not_binary_of_level above]
      · simp [Expr.hasErrors, sound.clean]
  | listed _ _ inner | someList _ _ inner | declare _ inner => exact inner
  | last _ inner | condition _ _ _ inner | perform _ _ inner => exact single inner.1
  | more _ _ _ inner rest => exact List.forall_mem_cons.mpr ⟨inner.1, rest⟩
  | someValue _ _ inner | set _ _ _ _ _ _ inner => exact single inner.1
  | giveBack _ _ _ inner => exact inner
  | loopClauses _ _ _ _ _ _ _ one two three =>
      intro expr member
      rcases List.mem_append.mp member with member | member
      · exact (List.mem_append.mp member).elim (one expr) (two expr)
      · exact three expr member
  | _ =>
      intro expr member
      cases member

theorem Cursor.takes_literal {cursor : Cursor} {expr : Expr}
    (known : cursor.current.literal? = some expr) : cursor.Takes cursor.step expr.words := by
  have literal {kind : TokenKind} (found : cursor.current.kind = kind) (goes : kind ≠ .endOfFile) :
      cursor.Takes cursor.step [.named kind cursor.current.text] :=
    .token found goes ⟨found, rfl⟩
  unfold Token.literal? at known
  split at known
  case h_5 => cases known
  all_goals
    rename_i found
    cases known
    exact literal found (by decide)

theorem Phrase.Runs.takes {phrase : Phrase} {cursor after : Cursor}
    (runs : phrase.Runs cursor after) : cursor.Takes after phrase.words := by
  have mark {place : Cursor} {kind : TokenKind} (found : place.kind = kind) (plain : kind.Plain) :
      place.Takes place.step [.mark kind] :=
    .mark found plain.2.2
  induction runs with
  | expression _ _ chain => exact chain
  | first _ operand => exact operand
  | step operator _ found _ left =>
      have sign := mark found (by cases operator <;> decide)
      simpa [words, Expr.words] using left.append sign
  | component _ dot _ name named left =>
      have sign := (mark dot (by decide)).append (.name name)
      rw [← Component.name_of_of_name named] at sign
      simpa [words, Expr.words] using left.append sign
  | binary _ _ found _ _ left right =>
      have sign := mark (kind_of_binary_operator found)
        (kind_of_binary_operator found ▸ TokenKind.plain_of_binary found)
      simpa [words, Expr.words] using left.append (sign.append right)
  | literal known => exact Cursor.takes_literal known
  | reference found => exact .name found
  | call found opens _ closes inner =>
      have front := (Cursor.Takes.name found).append (mark opens (by decide))
      simpa [words, Expr.words] using (front.append inner).append (mark closes (by decide))
  | cast opens word named closes _ inner =>
      have front := (mark opens (by decide)).append (.type word named)
      simpa [words, Expr.words] using (front.append (mark closes (by decide))).append inner
  | grouped opens _ closes inner | elements opens _ closes inner
    | condition opens _ closes inner =>
      simpa [words, Expr.words, Expr.conditionWords] using
        ((mark opens (by decide)).append inner).append (mark closes (by decide))
  | vector opens _ comma _ again _ closes one two three =>
      have front := (mark opens (by decide)).append (one.append (mark comma (by decide)))
      have back := two.append ((mark again (by decide)).append three)
      simpa [words, Expr.words] using (front.append back).append (mark closes (by decide))
  | rotation opens _ comma _ again _ more _ closes one two three four =>
      have front := (mark opens (by decide)).append (one.append (mark comma (by decide)))
      have back := two.append ((mark again (by decide)).append three)
      have last := (mark more (by decide)).append (four.append (mark closes (by decide)))
      simpa [words, Expr.words] using (front.append back).append last
  | prefixed found _ inner =>
      have sign := mark (kind_of_prefix_operator found)
        (kind_of_prefix_operator found ▸ TokenKind.plain_of_prefixed found)
      simpa [words, Expr.words] using sign.append inner
  | nothing | noList | noValue => exact .none _
  | listed _ _ inner | someList _ _ inner | someValue _ _ inner | declare _ inner => exact inner
  | last _ inner => simpa [words, Expr.listWords] using inner
  | @more _ exprs _ _ _ _ comma others inner rest =>
      have some : exprs ≠ [] := by cases others <;> simp
      simpa [words, Expr.listWords, some] using (inner.append (mark comma (by decide))).append rest
  | loopClauses opens _ ends _ again _ closes one two three =>
      have front := (mark opens (by decide)).append (one.append (mark ends (by decide)))
      have back := two.append ((mark again (by decide)).append three)
      simpa [words] using (front.append back).append (mark closes (by decide))
  | unset word named name ends =>
      have front := (Cursor.Takes.type word named).append (.name name)
      simpa [words, Variable.words] using front.append (mark ends (by decide))
  | set word named name sets _ ends inner =>
      have front := (Cursor.Takes.type word named).append (.name name)
      have back := ((mark sets (by decide)).append inner).append (mark ends (by decide))
      simpa [words, Variable.words] using front.append back
  | giveBack word _ ends inner =>
      simpa [words, Stmt.words] using
        ((mark word (by decide)).append inner).append (mark ends (by decide))
  | jump word name ends | label word name ends =>
      exact (mark word (by decide)).append ((Cursor.Takes.name name).append (mark ends (by decide)))
  | changeState word name ends =>
      exact (mark word (by decide)).append ((Cursor.Takes.state name).append (mark ends (by decide)))
  | empty ends => exact mark ends (by decide)
  | perform _ ends inner => simpa [words, Stmt.words] using inner.append (mark ends (by decide))

end Lsl
