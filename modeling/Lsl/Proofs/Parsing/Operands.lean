import Lsl.Parsing.Cursor
import Lsl.Proofs.Parsing.Precedence
import Lsl.Proofs.Syntax.Parts
import Lsl.Proofs.Syntax.Words

/-!
Operands are read from their words. Readers in a row are followed token by token, up to the rest that
they leave. What is read is the expression that was written, apart from what is no part of its text.
-/

set_option autoImplicit false

namespace Lsl

namespace Parser

/-- Before the closing token the reader takes the tokens up to the rest, and what it gives has the
property. -/
def Gives {α : Type} (close : Token) (reader : Parser α) (tokens rest : List Token)
    (property : α → Prop) : Prop :=
  ∀ cursor : Cursor, cursor.ahead = tokens → cursor.close = close →
    ∃ value after, reader cursor = .ok value after ∧ after.ahead = rest ∧ after.close = close ∧
      property value

/-- The kind of the token that comes next. -/
def upcoming (close : Token) (tokens : List Token) : TokenKind := (tokens.headD close).kind

@[simp] theorem upcoming_cons (close token : Token) (tokens : List Token) :
    upcoming close (token :: tokens) = token.kind :=
  rfl

namespace Gives

variable {α β : Type} {close token : Token} {tokens middle rest : List Token}

theorem pure {value : α} {property : α → Prop} (holds : property value) :
    Gives close (Pure.pure value) tokens tokens property :=
  fun cursor ahead same => ⟨value, cursor, rfl, ahead, same, holds⟩

theorem bind {reader : Parser α} {next : α → Parser β} {inner : α → Prop} {property : β → Prop}
    (first : Gives close reader tokens middle inner)
    (second : ∀ value, inner value → Gives close (next value) middle rest property) :
    Gives close (reader >>= next) tokens rest property := by
  intro cursor ahead same
  obtain ⟨value, after, read, behind, kept, holds⟩ := first cursor ahead same
  obtain ⟨result, last, done, ends, closed, told⟩ := second value holds after behind kept
  refine ⟨result, last, ?_, ends, closed, told⟩
  simp only [Bind.bind, EStateM.bind, read, done]

theorem peek_bind {next : Cursor → Parser β} {property : β → Prop}
    (others : ∀ cursor : Cursor, cursor.current = tokens.headD close →
      Gives close (next cursor) tokens rest property) :
    Gives close (Parser.peek >>= next) tokens rest property := by
  intro cursor ahead same
  exact others cursor (by rw [Cursor.current, ahead, same]) cursor ahead same

theorem next : Gives close Parser.next (token :: tokens) tokens (· = token) := by
  intro cursor ahead same
  refine ⟨token, cursor.step, ?_, ?_, ?_, rfl⟩
  · have current : cursor.current = token := by simp [Cursor.current, ahead]
    rw [← current]
    rfl
  · simp [Cursor.step, ahead]
  · simp [Cursor.step, ahead, same]

theorem expect {kind : TokenKind} (found : token.kind = kind) :
    Gives close (Parser.expect kind) (token :: tokens) tokens (· = token) := by
  unfold Parser.expect Parser.expectOr
  apply peek_bind
  intro cursor current
  rw [if_pos (by rw [Cursor.kind, current]; exact found)]
  exact next

theorem type {value : ValueType} (found : token.kind = .type)
    (named : ValueType.ofKeyword? token.text = some value) :
    Gives close Parser.type (token :: tokens) tokens (· = value) := by
  unfold Parser.type
  apply bind (expect found)
  rintro _ rfl
  simp only [named]
  exact pure rfl

theorem accept {kind : TokenKind} {taken passed : Parser β} {property : β → Prop}
    (found : token.kind = kind) (others : Gives close taken tokens rest property) :
    Gives close (do if ← Parser.accept kind then taken else passed) (token :: tokens) rest
      property := by
  unfold Parser.accept
  rw [bind_assoc]
  apply peek_bind
  intro cursor current
  rw [if_pos (by rw [Cursor.kind, current]; exact found), bind_assoc]
  exact bind next fun _ _ => others

theorem pass {kind : TokenKind} {taken passed : Parser β} {property : β → Prop}
    (other : upcoming close tokens ≠ kind) (others : Gives close passed tokens rest property) :
    Gives close (do if ← Parser.accept kind then taken else passed) tokens rest property := by
  unfold Parser.accept
  rw [bind_assoc]
  apply peek_bind
  intro cursor current
  rw [if_neg (by rw [Cursor.kind, current]; exact other)]
  exact others

theorem span_from_bind {start : Position} {next : Span → Parser β} {property : β → Prop}
    (others : ∀ span, Gives close (next span) tokens rest property) :
    Gives close (Parser.spanFrom start >>= next) tokens rest property :=
  peek_bind fun _ _ => others _

end Gives

end Parser

namespace Expr

mutual

/-- The expression without what is no part of its text: places, types and what names stand for. -/
def bare : Expr → Expr
  | integer _ raw => integer default raw
  | hex _ raw => hex default raw
  | float _ raw => float default raw
  | string _ raw => string default raw
  | vector _ x y z => vector default x.bare y.bare z.bare
  | rotation _ x y z s => rotation default x.bare y.bare z.bare s.bare
  | list _ _ elements => list default default (listBare elements)
  | reference _ name _ => reference default name .unresolved
  | call _ name _ arguments _ => call default name default (listBare arguments) .unresolved
  | binary _ operator left right => binary default operator left.bare right.bare
  | prefixed _ operator operand => prefixed default operator operand.bare
  | postfixed _ operator operand => postfixed default operator operand.bare
  | cast _ target operand => cast default target operand.bare
  | grouped _ inner => grouped default inner.bare
  | component _ part target => component default part target.bare

def listBare : List Expr → List Expr
  | [] => []
  | expr :: rest => expr.bare :: listBare rest

end

theorem is_empty_list_bare (exprs : List Expr) : (listBare exprs).isEmpty = exprs.isEmpty := by
  cases exprs <;> rfl

mutual

theorem words_bare (expr : Expr) : expr.bare.words = expr.words := by
  match expr with
  | .integer _ _ | .hex _ _ | .float _ _ | .string _ _ | .reference _ _ _ => rfl
  | .vector _ x y z => simp [bare, words, words_bare x, words_bare y, words_bare z]
  | .rotation _ x y z s =>
      simp [bare, words, words_bare x, words_bare y, words_bare z, words_bare s]
  | .list _ _ elements => simp [bare, words, list_words_bare elements]
  | .call _ _ _ arguments _ => simp [bare, words, list_words_bare arguments]
  | .binary _ _ left right => simp [bare, words, words_bare left, words_bare right]
  | .prefixed _ _ operand | .postfixed _ _ operand | .cast _ _ operand =>
      simp [bare, words, words_bare operand]
  | .grouped _ inner => simp [bare, words, words_bare inner]
  | .component _ _ target => simp [bare, words, words_bare target]

theorem list_words_bare (exprs : List Expr) : listWords (listBare exprs) = listWords exprs := by
  match exprs with
  | [] => rfl
  | expr :: rest =>
      rw [listBare, listWords, listWords, words_bare expr, list_words_bare rest,
        is_empty_list_bare]

end

@[simp] theorem level_bare (expr : Expr) : expr.bare.level = expr.level := by
  cases expr <;> rfl

@[simp] theorem is_binary_bare (expr : Expr) : expr.bare.isBinary = expr.isBinary := by
  cases expr <;> rfl

@[simp] theorem is_assignable_bare (expr : Expr) :
    expr.bare.isAssignable = expr.isAssignable := by
  cases expr <;> rfl

@[simp] theorem is_reference_bare (expr : Expr) : expr.bare.isReference = expr.isReference := by
  cases expr <;> rfl

mutual

theorem is_precedenced_bare (expr : Expr) : expr.bare.isPrecedenced = expr.isPrecedenced := by
  match expr with
  | .integer _ _ | .hex _ _ | .float _ _ | .string _ _ | .reference _ _ _ => rfl
  | .vector _ x y z =>
      simp [bare, isPrecedenced, is_precedenced_bare x, is_precedenced_bare y,
        is_precedenced_bare z]
  | .rotation _ x y z s =>
      simp [bare, isPrecedenced, is_precedenced_bare x, is_precedenced_bare y,
        is_precedenced_bare z, is_precedenced_bare s]
  | .list _ _ elements => simp [bare, isPrecedenced, all_precedenced_bare elements]
  | .call _ _ _ arguments _ => simp [bare, isPrecedenced, all_precedenced_bare arguments]
  | .binary _ _ left right =>
      simp [bare, isPrecedenced, is_precedenced_bare left, is_precedenced_bare right]
  | .prefixed _ _ operand | .postfixed _ _ operand | .cast _ _ operand =>
      simp [bare, isPrecedenced, is_precedenced_bare operand]
  | .grouped _ inner => simp [bare, isPrecedenced, is_precedenced_bare inner]
  | .component _ _ target => simp [bare, isPrecedenced, is_precedenced_bare target]

theorem all_precedenced_bare (exprs : List Expr) :
    allPrecedenced (listBare exprs) = allPrecedenced exprs := by
  match exprs with
  | [] => rfl
  | expr :: rest =>
      simp [listBare, allPrecedenced, is_precedenced_bare expr, all_precedenced_bare rest]

end

/-- The highest rank of a token that may follow the expression and leave it as it is. -/
def bound : Expr → Nat
  | binary _ operator _ _ => if operator.isAssignment then 0 else operator.power.rank
  | prefixed _ _ _ => Power.unary.rank
  | cast _ _ _ => Power.unary.rank
  | _ => Power.member.rank

/-- The operators that are put behind the first operand of the expression. -/
def turns : Expr → Nat
  | binary _ _ left _ => left.turns + 1
  | postfixed _ _ operand => operand.turns + 1
  | component _ _ target => target.turns + 1
  | _ => 0

theorem turns_le_length (expr : Expr) : expr.turns ≤ expr.words.length := by
  match expr with
  | .integer _ _ | .hex _ _ | .float _ _ | .string _ _ | .vector _ _ _ _ | .rotation _ _ _ _ _
  | .list _ _ _ | .reference _ _ _ | .call _ _ _ _ _ | .prefixed _ _ _ | .cast _ _ _
  | .grouped _ _ => exact Nat.zero_le _
  | .binary _ _ left _ =>
      have inner := turns_le_length left
      simp only [turns, words, List.length_append, List.length_cons]
      omega
  | .postfixed _ _ operand =>
      have inner := turns_le_length operand
      simpa [turns, words] using inner
  | .component _ _ target =>
      have inner := turns_le_length target
      simp only [turns, words, List.length_append, List.length_cons]
      omega

/-- An expression read at a power may be followed by whatever stops there. -/
theorem rank_le_bound {expr : Expr} {power : Power} (tight : power.rank < expr.level)
    (low : power.rank ≤ Power.unary.rank) : power.rank ≤ expr.bound := by
  cases expr with
  | binary info operator left right =>
      have above : power.rank < operator.power.rank := tight
      simp only [bound]
      split
      · rename_i assigns
        have rank : operator.power.rank = 1 := by cases operator <;> first | rfl | cases assigns
        omega
      · exact Nat.le_of_lt above
  | prefixed => exact low
  | cast => exact low
  | _ => exact Nat.le_of_lt_succ power.rank_lt

/-- An operator that assigns nothing may follow an operand of its own rank. -/
theorem operator_rank_le_bound {expr : Expr} {operator : BinaryOperator}
    (plain : operator.isAssignment = false) (tight : operator.power.rank ≤ expr.level) :
    operator.power.rank ≤ expr.bound := by
  have low := rank_le_multiplicative operator
  have high : 1 < operator.power.rank := by cases operator <;> first | decide | cases plain
  cases expr with
  | binary info other left right =>
      have above : operator.power.rank ≤ other.power.rank := tight
      simp only [bound]
      split
      · rename_i assigns
        have rank : other.power.rank = 1 := by cases other <;> first | rfl | cases assigns
        omega
      · exact above
  | prefixed => exact Nat.le_trans low (show 10 ≤ 11 by decide)
  | cast => exact Nat.le_trans low (show 10 ≤ 11 by decide)
  | _ => exact Nat.le_trans low (show 10 ≤ 13 by decide)

end Expr


/-- Kinds of tokens with which an expression may begin. -/
def TokenKind.beginsExpression (kind : TokenKind) : Bool :=
  kind.isLiteral || kind.prefixOperator?.isSome ||
    kind ∈ [.identifier, .openParen, .openBracket, .less]

namespace Expr

theorem level_pos (expr : Expr) : Power.lowest.rank < expr.level := by
  cases expr with
  | binary info operator left right => cases operator <;> exact Nat.succ_pos _
  | _ => exact Nat.succ_pos _

theorem opens_begins {expr : Expr} (close : Token) {tokens rest : List Token}
    (opens : Opens expr.words tokens rest) :
    (Parser.upcoming close tokens).beginsExpression = true := by
  match expr with
  | .integer _ _ | .hex _ _ | .float _ _ | .string _ _ | .reference _ _ _ | .call _ _ _ _ _ =>
      obtain ⟨token, others, rfl, ⟨found, _⟩, _⟩ := Opens.cons_iff.mp opens
      simp only [Parser.upcoming_cons, found]
      decide
  | .vector _ _ _ _ | .rotation _ _ _ _ _ | .list _ _ _ | .cast _ _ _ | .grouped _ _ =>
      simp only [words, List.cons_append] at opens
      obtain ⟨token, others, rfl, found, _⟩ := Opens.cons_iff.mp opens
      simp only [Word.Fits] at found
      simp only [Parser.upcoming_cons, found]
      decide
  | .prefixed _ operator _ =>
      obtain ⟨token, others, rfl, found, _⟩ := Opens.cons_iff.mp opens
      simp only [Word.Fits] at found
      simp only [Parser.upcoming_cons, found]
      cases operator <;> decide
  | .binary _ _ left _ =>
      obtain ⟨_, within, _⟩ := Opens.append_iff.mp opens
      exact opens_begins close within
  | .postfixed _ _ operand =>
      obtain ⟨_, within, _⟩ := Opens.append_iff.mp opens
      exact opens_begins close within
  | .component _ _ target =>
      obtain ⟨_, within, _⟩ := Opens.append_iff.mp opens
      exact opens_begins close within

/-- A token of this kind may follow the expression and leaves it as it is. -/
structure Stops (expr : Expr) (kind : TokenKind) : Prop where
  call : kind ≠ .openParen
  rank : kind.power.rank ≤ expr.bound

section

open Lsl.Parser

variable {close : Token} {expr : Expr} {power : Power} {fuel : Nat} {tokens rest : List Token}

/-- Where the words of the expression come first, they are read as its first operand and extended to
the expression; reading then goes on behind it. -/
def Parses (close : Token) (expr : Expr) : Prop :=
  ∀ (power : Power) (fuel : Nat) (tokens rest last : List Token) (property : Expr → Prop),
    power.rank ≤ Power.unary.rank → power.rank < expr.level →
    4 * expr.words.length + 4 ≤ fuel → Opens expr.words tokens rest →
    expr.Stops (upcoming close rest) →
    (∀ found : Expr, found.bare = expr.bare →
      Gives close (extendWithin (fuel - expr.turns) power found) rest last property) →
    Gives close (operandWithin fuel >>= extendWithin fuel power) tokens last property

theorem parses_of_operand (still : expr.turns = 0)
    (reads : ∀ fuel tokens rest, 4 * expr.words.length + 4 ≤ fuel + 1 →
      Opens expr.words tokens rest → expr.Stops (upcoming close rest) →
      Gives close (operandWithin (fuel + 1)) tokens rest (·.bare = expr.bare)) :
    expr.Parses close := by
  intro power fuel tokens rest last property _ _ enough opens stops onward
  rw [still, Nat.sub_zero] at onward
  obtain ⟨steps, rfl⟩ : ∃ steps, fuel = steps + 1 := ⟨fuel - 1, by omega⟩
  exact Gives.bind (reads steps tokens rest enough opens stops) onward

theorem Parses.expression (parses : expr.Parses close) (low : power.rank ≤ Power.unary.rank)
    (tight : power.rank < expr.level) (enough : 4 * expr.words.length + 5 ≤ fuel)
    (opens : Opens expr.words tokens rest) (call : upcoming close rest ≠ .openParen)
    (loose : (upcoming close rest).power.rank ≤ power.rank) :
    Gives close (expressionWithin fuel power) tokens rest (·.bare = expr.bare) := by
  obtain ⟨steps, rfl⟩ : ∃ steps, fuel = steps + 1 := ⟨fuel - 1, by omega⟩
  rw [expressionWithin]
  have stops : expr.Stops (upcoming close rest) :=
    ⟨call, Nat.le_trans loose (rank_le_bound tight low)⟩
  apply parses power steps tokens rest rest _ low tight (by omega) opens stops
  intro found same
  have short := turns_le_length expr
  obtain ⟨left, fuelLeft⟩ : ∃ left, steps - expr.turns = left + 1 :=
    ⟨steps - expr.turns - 1, by omega⟩
  rw [fuelLeft, extendWithin]
  apply Gives.peek_bind
  intro cursor current
  rw [if_pos (by rw [Cursor.kind, current]; exact loose)]
  exact Gives.pure same

theorem parses_literal (literal : expr.isLiteral = true) : expr.Parses close := by
  cases expr with
  | integer info raw | hex info raw | float info raw | string info raw =>
      apply parses_of_operand rfl
      intro fuel tokens rest _ opens _
      obtain ⟨token, others, rfl, ⟨found, text⟩, behind⟩ := Opens.cons_iff.mp opens
      obtain rfl := Opens.nil_iff.mp behind
      rw [operandWithin]
      apply Gives.peek_bind
      intro cursor current
      simp only [current, List.headD_cons, found]
      apply Gives.bind Gives.next
      rintro _ rfl
      apply Gives.pure
      rw [text]
      rfl
  | _ => cases literal

theorem parses_reference (info : ExprInfo) (name : String) (binding : Binding) :
    (reference info name binding).Parses close := by
  apply parses_of_operand rfl
  intro fuel tokens rest _ opens stops
  obtain ⟨token, others, rfl, ⟨found, text⟩, behind⟩ := Opens.cons_iff.mp opens
  obtain rfl := Opens.nil_iff.mp behind
  rw [operandWithin]
  apply Gives.peek_bind
  intro cursor current
  simp only [current, List.headD_cons, found]
  apply Gives.bind Gives.next
  rintro _ rfl
  apply Gives.pass stops.call
  apply Gives.pure
  rw [text]
  rfl

theorem Parses.grouped {inner : Expr} (parses : inner.Parses close) (info : ExprInfo) :
    (grouped info inner).Parses close := by
  apply parses_of_operand rfl
  intro fuel tokens rest enough opens _
  simp only [words, List.cons_append, List.length_cons, List.length_append] at enough opens
  obtain ⟨token, others, rfl, (found : token.kind = .openParen), behind⟩ := Opens.cons_iff.mp opens
  obtain ⟨middle, within, behind⟩ := Opens.append_iff.mp behind
  obtain ⟨last, others, rfl, (closes : last.kind = .closeParen), behind⟩ :=
    Opens.cons_iff.mp behind
  obtain rfl := Opens.nil_iff.mp behind
  have begins := opens_begins close within
  rw [operandWithin]
  apply Gives.peek_bind
  intro cursor current
  simp only [current, List.headD_cons, found]
  apply Gives.bind Gives.next
  rintro _ rfl
  apply Gives.peek_bind
  intro cursor current
  -- No expression begins with a type, so this is no cast.
  rw [if_neg (by
    intro type
    rw [upcoming, ← current, ← Cursor.kind, type] at begins
    exact absurd begins (by decide))]
  apply Gives.bind (parses.expression (by decide) (level_pos inner) (by omega) within
    (by rw [upcoming_cons, closes]; decide) (by rw [upcoming_cons, closes]; decide))
  intro inner same
  apply Gives.bind (Gives.expect closes)
  intro _ _
  refine Gives.span_from_bind fun span => Gives.pure ?_
  simp only [bare, same]

theorem Parses.cast {operand : Expr} (parses : operand.Parses close)
    (plain : operand.isBinary = false) (info : ExprInfo) (target : ValueType) :
    (cast info target operand).Parses close := by
  apply parses_of_operand rfl
  intro fuel tokens rest enough opens stops
  simp only [words, List.length_cons] at enough opens
  obtain ⟨token, others, rfl, (found : token.kind = .openParen), behind⟩ := Opens.cons_iff.mp opens
  obtain ⟨type, others, rfl, ⟨typed, named⟩, behind⟩ := Opens.cons_iff.mp behind
  obtain ⟨last, others, rfl, (closes : last.kind = .closeParen), within⟩ :=
    Opens.cons_iff.mp behind
  rw [operandWithin]
  apply Gives.peek_bind
  intro cursor current
  simp only [current, List.headD_cons, found]
  apply Gives.bind Gives.next
  rintro _ rfl
  apply Gives.peek_bind
  intro cursor current
  rw [if_pos (by rw [Cursor.kind, current]; exact typed)]
  apply Gives.bind (Gives.type typed named)
  rintro _ rfl
  apply Gives.bind (Gives.expect closes)
  intro _ _
  apply Gives.bind (parses.expression (Nat.le_refl _) (rank_lt_level plain _) (by omega) within
    stops.call stops.rank)
  intro operand same
  refine Gives.span_from_bind fun span => Gives.pure ?_
  simp only [bare, same]

theorem Parses.prefixed {operand : Expr} (parses : operand.Parses close)
    (plain : operand.isBinary = false) (info : ExprInfo) (operator : PrefixOperator) :
    (prefixed info operator operand).Parses close := by
  apply parses_of_operand rfl
  intro fuel tokens rest enough opens stops
  simp only [words, List.length_cons] at enough opens
  obtain ⟨token, others, rfl, (found : token.kind = operator.kind), within⟩ :=
    Opens.cons_iff.mp opens
  have reads := parses.expression (Nat.le_refl _) (rank_lt_level plain _)
    (show 4 * operand.words.length + 5 ≤ fuel by omega) within stops.call stops.rank
  rw [operandWithin]
  apply Gives.peek_bind
  intro cursor current
  cases operator <;>
    · simp only [current, List.headD_cons, found, PrefixOperator.kind, TokenKind.prefixOperator?]
      apply Gives.bind Gives.next
      rintro _ rfl
      apply Gives.bind reads
      intro operand same
      apply Gives.pure
      simp only [bare, same]

theorem gives_members {exprs : List Expr} {terminator : TokenKind}
    (parse : ∀ expr ∈ exprs, expr.Parses close)
    (some : exprs ≠ []) (enough : 4 * (listWords exprs).length + 6 ≤ fuel)
    (opens : Opens (listWords exprs) tokens rest)
    (known : terminator = .closeParen ∨ terminator = .closeBracket)
    (ends : upcoming close rest = terminator) :
    Gives close (membersWithin fuel) tokens rest
      (fun found => listBare found = listBare exprs) := by
  induction exprs generalizing fuel tokens with
  | nil => exact absurd rfl some
  | cons expr others induction =>
      obtain ⟨steps, rfl⟩ : ∃ steps, fuel = steps + 1 := ⟨fuel - 1, by omega⟩
      have first := parse expr (by simp)
      rw [membersWithin]
      cases others with
      | nil =>
          simp only [listWords, List.isEmpty_nil, if_true, List.append_nil] at enough opens
          have stops : terminator ≠ .openParen ∧ terminator ≠ .comma ∧
              terminator.power.rank ≤ Power.lowest.rank := by
            rcases known with rfl | rfl <;> decide
          apply Gives.bind (first.expression (by decide) (level_pos expr) (by omega) opens
            (ends ▸ stops.1) (ends ▸ stops.2.2))
          intro found same
          apply Gives.pass (ends ▸ stops.2.1)
          apply Gives.pure
          simp only [listBare, same]
      | cons second others =>
          rw [listWords] at enough opens
          simp only [List.isEmpty_cons, Bool.false_eq_true, if_false, List.append_assoc,
            List.length_append, List.length_cons, List.length_nil] at enough opens
          obtain ⟨middle, within, behind⟩ := Opens.append_iff.mp opens
          obtain ⟨comma, tail, rfl, (divides : comma.kind = .comma), behind⟩ :=
            Opens.cons_iff.mp behind
          apply Gives.bind (first.expression (by decide) (level_pos expr) (by omega) within
            (by rw [upcoming_cons, divides]; decide) (by rw [upcoming_cons, divides]; decide))
          intro found same
          apply Gives.accept divides
          apply Gives.bind (induction (fun expr member => parse expr (by simp [member]))
            (by simp) (by omega) behind)
          intro more alike
          apply Gives.pure
          rw [listBare, listBare, same, alike]

theorem gives_list {exprs : List Expr} {terminator : TokenKind}
    (parse : ∀ expr ∈ exprs, expr.Parses close)
    (enough : 4 * (listWords exprs).length + 7 ≤ fuel)
    (opens : Opens (listWords exprs) tokens rest)
    (known : terminator = .closeParen ∨ terminator = .closeBracket)
    (ends : upcoming close rest = terminator) :
    Gives close (listWithin fuel terminator) tokens rest
      (fun found => listBare found.members = listBare exprs) := by
  obtain ⟨steps, rfl⟩ : ∃ steps, fuel = steps + 1 := ⟨fuel - 1, by omega⟩
  rw [listWithin]
  apply Gives.peek_bind
  intro cursor current
  cases exprs with
  | nil =>
      obtain rfl := Opens.nil_iff.mp opens
      rw [if_pos (by rw [Cursor.kind, current]; exact ends)]
      exact Gives.pure rfl
  | cons expr others =>
      have begins : (upcoming close tokens).beginsExpression = true := by
        rw [listWords, List.append_assoc] at opens
        obtain ⟨_, within, _⟩ := Opens.append_iff.mp opens
        exact opens_begins close within
      rw [if_neg (by
        intro same
        rw [upcoming, ← current, ← Cursor.kind, same] at begins
        rcases known with rfl | rfl <;> exact absurd begins (by decide))]
      apply Gives.bind (gives_members parse (by simp) (by omega) opens known ends)
      intro members same
      exact Gives.span_from_bind fun span => Gives.pure same

theorem parses_list {elements : List Expr} (parse : ∀ expr ∈ elements, expr.Parses close)
    (info : ExprInfo) (inner : Span) : (list info inner elements).Parses close := by
  apply parses_of_operand rfl
  intro fuel tokens rest enough opens _
  simp only [words, List.cons_append, List.length_cons, List.length_append] at enough opens
  obtain ⟨token, others, rfl, (found : token.kind = .openBracket), behind⟩ :=
    Opens.cons_iff.mp opens
  obtain ⟨middle, within, behind⟩ := Opens.append_iff.mp behind
  obtain ⟨last, others, rfl, (closes : last.kind = .closeBracket), behind⟩ :=
    Opens.cons_iff.mp behind
  obtain rfl := Opens.nil_iff.mp behind
  rw [operandWithin]
  apply Gives.peek_bind
  intro cursor current
  simp only [current, List.headD_cons, found]
  apply Gives.bind Gives.next
  rintro _ rfl
  apply Gives.bind (gives_list parse (by omega) within (.inr rfl) closes)
  intro elements same
  apply Gives.bind (Gives.expect closes)
  intro _ _
  refine Gives.span_from_bind fun span => Gives.pure ?_
  simp only [bare, same]

theorem parses_call {arguments : List Expr} (parse : ∀ expr ∈ arguments, expr.Parses close)
    (info : ExprInfo) (name : String) (inner : Span) (target : CallTarget) :
    (call info name inner arguments target).Parses close := by
  apply parses_of_operand rfl
  intro fuel tokens rest enough opens _
  simp only [words, List.cons_append, List.length_cons, List.length_append] at enough opens
  obtain ⟨token, others, rfl, ⟨found, text⟩, behind⟩ := Opens.cons_iff.mp opens
  obtain ⟨bracket, others, rfl, (applied : bracket.kind = .openParen), behind⟩ :=
    Opens.cons_iff.mp behind
  obtain ⟨middle, within, behind⟩ := Opens.append_iff.mp behind
  obtain ⟨last, others, rfl, (closes : last.kind = .closeParen), behind⟩ :=
    Opens.cons_iff.mp behind
  obtain rfl := Opens.nil_iff.mp behind
  rw [operandWithin]
  apply Gives.peek_bind
  intro cursor current
  simp only [current, List.headD_cons, found]
  apply Gives.bind Gives.next
  rintro _ rfl
  apply Gives.accept applied
  apply Gives.bind (gives_list parse (by omega) within (.inl rfl) closes)
  intro arguments same
  apply Gives.bind (Gives.expect closes)
  intro _ _
  refine Gives.span_from_bind fun span => Gives.pure ?_
  simp only [bare, same, text]

/-- An expression up to a comma or, where relational operators stop, a closing angle bracket. -/
theorem Parses.up_to (parses : expr.Parses close) {token : Token} {kind : TokenKind}
    (found : token.kind = kind) (low : power.rank ≤ Power.unary.rank)
    (tight : power.rank < expr.level) (enough : 4 * expr.words.length + 5 ≤ fuel)
    (opens : Opens expr.words tokens (token :: rest)) (call : kind ≠ .openParen)
    (loose : kind.power.rank ≤ power.rank) :
    Gives close (expressionWithin fuel power) tokens (token :: rest) (·.bare = expr.bare) :=
  parses.expression low tight enough opens (by rw [upcoming_cons, found]; exact call)
    (by rw [upcoming_cons, found]; exact loose)

/-- The first two components of a vector or rotation. -/
theorem gives_two {x y : Expr} {more : List Word} {last : List Token}
    {onward : Expr → Expr → Parser Expr} {property : Expr → Prop} (first : x.Parses close)
    (second : y.Parses close)
    (enough : 4 * (x.words.length + y.words.length) + 5 ≤ fuel)
    (opens : Opens (x.words ++ .mark .comma :: (y.words ++ .mark .comma :: more)) tokens rest)
    (others : ∀ foundX foundY middle, foundX.bare = x.bare → foundY.bare = y.bare →
      Opens more middle rest → Gives close (onward foundX foundY) middle last property) :
    Gives close (do
      let x ← expressionWithin fuel .lowest
      let _ ← expect .comma
      let y ← expressionWithin fuel .lowest
      let _ ← expect .comma
      onward x y) tokens last property := by
  obtain ⟨_, inX, behind⟩ := Opens.append_iff.mp opens
  obtain ⟨comma, _, rfl, (divides : comma.kind = .comma), behind⟩ := Opens.cons_iff.mp behind
  obtain ⟨_, inY, behind⟩ := Opens.append_iff.mp behind
  obtain ⟨again, _, rfl, (splits : again.kind = .comma), behind⟩ := Opens.cons_iff.mp behind
  apply Gives.bind (first.up_to divides (by decide) (level_pos x) (by omega) inX (by decide)
    (by decide))
  intro foundX sameX
  apply Gives.bind (Gives.expect divides)
  intro _ _
  apply Gives.bind (second.up_to splits (by decide) (level_pos y) (by omega) inY (by decide)
    (by decide))
  intro foundY sameY
  apply Gives.bind (Gives.expect splits)
  intro _ _
  exact others foundX foundY _ sameX sameY behind

theorem parses_vector {x y z : Expr} (first : x.Parses close) (second : y.Parses close)
    (third : z.Parses close) (tight : Power.relational.rank < z.level) (info : ExprInfo) :
    (vector info x y z).Parses close := by
  apply parses_of_operand rfl
  intro fuel tokens rest enough opens _
  simp only [words, List.cons_append, List.append_assoc, List.length_cons,
    List.length_append] at enough opens
  obtain ⟨token, others, rfl, (found : token.kind = .less), behind⟩ := Opens.cons_iff.mp opens
  rw [operandWithin]
  apply Gives.peek_bind
  intro cursor current
  simp only [current, List.headD_cons, found]
  apply Gives.bind Gives.next
  rintro _ rfl
  apply gives_two first second (by omega) behind
  intro x y middle sameX sameY behind
  obtain ⟨_, inZ, behind⟩ := Opens.append_iff.mp behind
  obtain ⟨last, _, rfl, (closes : last.kind = .greater), behind⟩ := Opens.cons_iff.mp behind
  obtain rfl := Opens.nil_iff.mp behind
  apply Gives.bind (third.up_to closes (by decide) tight (by omega) inZ (by decide) (by decide))
  intro z sameZ
  apply Gives.accept closes
  refine Gives.span_from_bind fun span => Gives.pure ?_
  simp only [bare, sameX, sameY, sameZ]

theorem parses_rotation {x y z s : Expr} (first : x.Parses close) (second : y.Parses close)
    (third : z.Parses close) (fourth : s.Parses close)
    (tight : Power.relational.rank < z.level) (narrow : Power.relational.rank < s.level)
    (info : ExprInfo) : (rotation info x y z s).Parses close := by
  apply parses_of_operand rfl
  intro fuel tokens rest enough opens _
  simp only [words, List.cons_append, List.append_assoc, List.length_cons,
    List.length_append] at enough opens
  obtain ⟨token, others, rfl, (found : token.kind = .less), behind⟩ := Opens.cons_iff.mp opens
  rw [operandWithin]
  apply Gives.peek_bind
  intro cursor current
  simp only [current, List.headD_cons, found]
  apply Gives.bind Gives.next
  rintro _ rfl
  apply gives_two first second (by omega) behind
  intro x y middle sameX sameY behind
  obtain ⟨_, inZ, behind⟩ := Opens.append_iff.mp behind
  obtain ⟨comma, _, rfl, (divides : comma.kind = .comma), behind⟩ := Opens.cons_iff.mp behind
  obtain ⟨_, inS, behind⟩ := Opens.append_iff.mp behind
  obtain ⟨last, _, rfl, (closes : last.kind = .greater), behind⟩ := Opens.cons_iff.mp behind
  obtain rfl := Opens.nil_iff.mp behind
  apply Gives.bind (third.up_to divides (by decide) tight (by omega) inZ (by decide) (by decide))
  intro z sameZ
  apply Gives.pass (by rw [upcoming_cons, divides]; decide)
  apply Gives.accept divides
  apply Gives.bind (fourth.up_to closes (by decide) narrow (by omega) inS (by decide) (by decide))
  intro s sameS
  apply Gives.bind (Gives.expect closes)
  intro _ _
  refine Gives.span_from_bind fun span => Gives.pure ?_
  simp only [bare, sameX, sameY, sameZ, sameS]

end

end Expr

end Lsl
