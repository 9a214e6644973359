import Lsl.Generation.Expression
import Lsl.Proofs.Token.Numbers

/-!
Numbers in generated code. Code made of one number denotes it, whatever object it is wrapped in and
however often it is negated. An integer literal whose value its type can hold is written as it
stands, and any other becomes minus one, for which a minus in front of it counts.
-/

set_option autoImplicit false

namespace Lsl

/-- The number that code made of one number has at run time. -/
inductive Code.Denotes : Code → ℚ → Prop
  | plain {text : String} {value : ℚ} (number : Target.SignedNumber text.toList value) :
    Denotes (.plain text) value
  | boxed (kind : LiteralKind) {code : Code} {value : ℚ} (inside : Denotes code value) :
    Denotes (.create (kind.type.targetName false) "," [code]) value
  | negated {code : Code} {value : ℚ} (inside : Denotes code value) :
    Denotes (.before "-" (.grouped code)) (-value)
  | grouped {code : Code} {value : ℚ} (inside : Denotes code value) :
    Denotes (.grouped code) value
  | forced {code : Code} {value : ℚ} (inside : Denotes code value) :
    Denotes (.invoke (.utility "ForceStatement") [code]) value

theorem Code.Denotes.unique {code : Code} {value other : ℚ} (denotes : code.Denotes value)
    (also : code.Denotes other) : value = other := by
  induction denotes generalizing other with
  | plain number =>
      cases also with
      | plain same => exact number.unique same
  | boxed kind _ induction =>
      generalize kind.type.targetName false = name at also
      cases also with
      | boxed _ same => exact induction same
  | negated _ induction =>
      cases also with
      | negated same => rw [induction same]
  | grouped _ induction =>
      cases also with
      | grouped same => exact induction same
  | forced _ induction =>
      cases also with
      | forced same => exact induction same

namespace LiteralKind

def literal (kind : LiteralKind) (info : ExprInfo) (raw : String) : Expr :=
  match kind with
  | integer => .integer info raw
  | hex => .hex info raw
  | float => .float info raw
  | string => .string info raw

/-- The largest value an integer literal can have. -/
def limit : LiteralKind → Nat
  | hex => 4294967295
  | _ => 2147483647

/-- The number that digits write, for the kinds of integer literals. -/
inductive Writes : LiteralKind → List Char → Nat → Prop
  | integer {chars : List Char} {value : Nat} (numeral : Numeral 10 chars value) :
    Writes .integer chars value
  | hex {chars : List Char} {value : Nat} (text : HexText chars value) : Writes .hex chars value

def held (kind : LiteralKind) (value : Nat) : ℚ := if value ≤ kind.limit then value else -1

/-- What an integer literal with a minus in front of it stands for. -/
def opposite (kind : LiteralKind) (value : Nat) : ℚ := if value ≤ kind.limit then -value else -1

variable {kind : LiteralKind} {chars : List Char} {value : Nat}

theorem one_le_limit (kind : LiteralKind) : 1 ≤ kind.limit := by
  cases kind <;> decide

theorem held_eq_iff : kind.held value = value ↔ value ≤ kind.limit := by
  unfold held
  split
  · rename_i within
    exact iff_of_true rfl within
  · rename_i wide
    refine iff_of_false (fun same => ?_) wide
    have positive : (0 : ℚ) ≤ value := Nat.cast_nonneg value
    rw [← same] at positive
    exact absurd positive (by norm_num)

theorem opposite_eq_iff : kind.opposite value = -value ↔ value ≤ kind.limit := by
  unfold opposite
  split
  · rename_i within
    exact iff_of_true rfl within
  · rename_i wide
    refine iff_of_false (fun same => wide ?_) wide
    have single : value = 1 := by exact_mod_cast (neg_injective same).symm
    exact single ▸ kind.one_le_limit

theorem Writes.number (writes : kind.Writes chars value) : Target.Number chars value := by
  cases writes with
  | integer numeral => exact .decimal numeral
  | hex text => exact .hex text

theorem Writes.unique {other : Nat} (writes : kind.Writes chars value)
    (also : kind.Writes chars other) : value = other :=
  Nat.cast_injective (writes.number.unique also.number)

theorem Writes.code {raw : String} (writes : kind.Writes raw.toList value) (info : ExprInfo)
    (manner : Manner) (place : Place) : (kind.literal info raw).code manner place =
      literalCode place kind (if value ≤ kind.limit then raw else overflowed place) := by
  generalize same : raw.toList = chars at writes
  cases writes with
  | integer numeral =>
      subst same
      exact congrArg (literalCode place .integer)
        (if_congr (Literal.integer_fits_iff numeral) rfl rfl)
  | hex text =>
      subst same
      exact congrArg (literalCode place .hex) (if_congr (Literal.hex_fits_iff text) rfl rfl)

end LiteralKind

theorem literal_code_injective {place : Place} {kind : LiteralKind} {text other : String}
    (same : literalCode place kind text = literalCode place kind other) : text = other := by
  unfold literalCode at same
  split at same <;> cases same <;> rfl

theorem literal_code_denotes (place : Place) (kind : LiteralKind) {text : String} {value : ℚ}
    (number : Target.SignedNumber text.toList value) :
    (literalCode place kind text).Denotes value := by
  unfold literalCode
  split
  · exact .boxed kind (.plain number)
  · exact .plain number

theorem numeral_one : Numeral 10 ['1'] 1 :=
  ⟨by simp, [1], .cons (by decide) .nil, rfl⟩

theorem overflowed_number (place : Place) :
    Target.SignedNumber (overflowed place).toList (if place = .negated then 1 else -1) := by
  have one : Target.Number ['1'] 1 := by simpa using Target.Number.decimal numeral_one
  unfold overflowed
  split
  · exact .plain one
  · exact .negative one

/-- The types whose values are negated by a helper. -/
def ValueType.isSpatial (type : ValueType) : Bool := type == .vector || type == .rotation

theorem negated_denotes (place : Place) {operand : ValueType} {code : Code} {value : ℚ}
    (flat : operand.isSpatial = false) (inside : code.Denotes value) :
    (prefixedCode place .negate operand code).Denotes (-value) := by
  have plain : ¬ (operand = .rotation ∨ operand = .vector ∧ PrefixOperator.negate = .negate) := by
    cases operand <;> first | decide | cases flat
  rw [prefixedCode, if_neg plain]
  dsimp only [PrefixOperator.isStep, Bool.false_eq_true, if_false]
  split
  · exact .forced (.negated inside)
  · split
    · exact .negated inside
    · exact .grouped (.negated inside)

/-- What becomes of an integer literal of the value. -/
structure WholeKept (kind : LiteralKind) (raw : String) (value : Nat) : Prop where
  raw_iff (info : ExprInfo) (manner : Manner) (place : Place) :
    (kind.literal info raw).code manner place = literalCode place kind raw ↔ value ≤ kind.limit
  alone (info : ExprInfo) (manner : Manner) {place : Place} (bare : place ≠ .negated) :
    ((kind.literal info raw).code manner place).Denotes (kind.held value)
  negated (outer : ExprInfo) {info : ExprInfo} (manner : Manner) (place : Place)
    (flat : (kind.literal info raw).type.isSpatial = false) :
    ((Expr.prefixed outer .negate (kind.literal info raw)).code manner place).Denotes
      (kind.opposite value)

theorem LiteralKind.Writes.kept {kind : LiteralKind} {raw : String} {value : Nat}
    (writes : kind.Writes raw.toList value) : WholeKept kind raw value where
  raw_iff info manner place := by
    rw [writes.code]
    split
    · rename_i fits
      exact iff_of_true rfl fits
    · rename_i wide
      refine iff_of_false (fun same => wide ?_) wide
      have one := overflowed_number place
      rw [literal_code_injective same] at one
      have known := (Target.SignedNumber.plain writes.number).unique one
      split at known
      · have single : value = 1 := by exact_mod_cast known
        exact single ▸ kind.one_le_limit
      · have positive : (0 : ℚ) ≤ value := Nat.cast_nonneg value
        rw [known] at positive
        exact absurd positive (by norm_num)
  alone info manner place bare := by
    rw [writes.code]
    refine literal_code_denotes place kind ?_
    rw [LiteralKind.held]
    split
    · exact .plain writes.number
    · simpa [bare] using overflowed_number place
  negated outer info manner place flat := by
    rw [Expr.code, if_pos rfl]
    have inside : ((kind.literal info raw).code manner .negated).Denotes
        (if value ≤ kind.limit then value else 1) := by
      rw [writes.code]
      refine literal_code_denotes .negated kind ?_
      split
      · exact .plain writes.number
      · exact overflowed_number .negated
    convert negated_denotes place flat inside using 1
    rw [LiteralKind.opposite]
    split <;> rfl

/-- What becomes of a float literal of the value. -/
structure FloatKept (raw : String) (value : ℚ) : Prop where
  number : Target.FloatNumber (Literal.formatFloat raw).toList value
  again : Literal.formatFloat (Literal.formatFloat raw) = Literal.formatFloat raw
  code (fits : Literal.floatFit raw = .fits) (info : ExprInfo) (manner : Manner) (place : Place) :
    (Expr.float info raw).code manner place =
      literalCode place .float (Literal.formatFloat raw)

theorem FloatText.kept {raw : String} {value : ℚ} (text : FloatText raw.toList value) :
    FloatKept raw value where
  number := Literal.format_float_number text
  again := Literal.format_float_eq (Literal.format_float_number text)
  code fits info manner place := by rw [Expr.code, floatCode, fits]

/-- A number keeps its value, and an integer too large for its type is minus one. -/
theorem number_literals_kept {source : String} {token : Token} (member : token ∈ tokenize source) :
    (token.kind = .integer → ∃ value, Numeral 10 token.text.toList value ∧
      WholeKept .integer token.text value) ∧
    (token.kind = .hex → ∃ value, HexText token.text.toList value ∧
      WholeKept .hex token.text value) ∧
    (token.kind = .float → ∃ value, FloatText token.text.toList value ∧
      FloatKept token.text value) := by
  have numbers := tokenize_numbers member
  refine ⟨fun same => ?_, fun same => ?_, fun same => ?_⟩ <;> rw [same] at numbers
  · obtain ⟨value, numeral⟩ := numbers
    exact ⟨value, numeral, (LiteralKind.Writes.integer numeral).kept⟩
  · obtain ⟨value, text⟩ := numbers
    exact ⟨value, text, (LiteralKind.Writes.hex text).kept⟩
  · obtain ⟨value, text⟩ := numbers
    exact ⟨value, text, text.kept⟩

theorem leading_zeros_kept :
    WholeKept .integer "00000000002147483648" 2147483648 ∧
      WholeKept .hex "0x00000000FFFFFFFF" 4294967295 ∧
      ∃ value, FloatText ".5e3f".toList value ∧ FloatKept ".5e3f" value := by
  have single (source : String) (kind : TokenKind) (first : (tokenize source)[0]? =
      some ⟨kind, source, ⟨.origin, Position.origin.advanceOver source.toList⟩⟩) :=
    number_literals_kept (List.mem_of_getElem? first)
  refine ⟨?_, ?_, ?_⟩
  · obtain ⟨value, numeral, kept⟩ := (single "00000000002147483648" .integer (by decide)).1 rfl
    have known : Numeral 10 "00000000002147483648".toList 2147483648 :=
      natural_eq_some_iff.mp (by decide)
    rwa [numeral.unique known] at kept
  · obtain ⟨value, text, kept⟩ := (single "0x00000000FFFFFFFF" .hex (by decide)).2.1 rfl
    have known : HexText "0x00000000FFFFFFFF".toList 4294967295 :=
      .marked (.inl rfl) (natural_eq_some_iff.mp (by decide))
    rwa [text.unique known] at kept
  · exact (single ".5e3f" .float (by decide)).2.2 rfl

end Lsl
