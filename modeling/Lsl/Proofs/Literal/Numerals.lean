import Lsl.Literal
import Lsl.Proofs.Text.Words
import Mathlib.Algebra.Order.Field.Rat
import Mathlib.Data.List.Forall2
import Mathlib.Data.Nat.Digits.Defs

/-!
Numbers as they are written. Digits write a number by their places. A decimal text has digits, at
most one point among them or beside them, and perhaps an exponent; the number it writes is the one
that is read from it.
-/

set_option autoImplicit false

namespace Lsl

/-- Digits of a base, one or more, and the number they write by their places. -/
structure Numeral (base : Nat) (digits : List Char) (value : Nat) : Prop where
  nonempty : digits ≠ []
  places : ∃ values, List.Forall₂ (fun digit value => digitValue? base digit = some value) digits
    values ∧ Nat.ofDigits base values.reverse = value

theorem natural_from_eq_some_iff {base start value : Nat} {digits : List Char} :
    naturalFrom base start digits = some value ↔ ∃ values,
      List.Forall₂ (fun digit value => digitValue? base digit = some value) digits values ∧
        start * base ^ values.length + Nat.ofDigits base values.reverse = value := by
  induction digits generalizing start with
  | nil => simp [naturalFrom]
  | cons digit digits induction =>
      rw [naturalFrom]
      simp only [List.forall₂_cons_left_iff]
      cases found : digitValue? base digit with
      | none => simp
      | some own =>
          simp only [Option.some.injEq, exists_and_left]
          rw [induction]
          constructor
          · rintro ⟨values, places, same⟩
            refine ⟨own :: values, ⟨own, rfl, values, places, rfl⟩, ?_⟩
            rw [← same, Nat.ofDigits_reverse_cons, List.length_cons]
            ring
          · rintro ⟨_, ⟨_, rfl, values, places, rfl⟩, same⟩
            refine ⟨values, places, ?_⟩
            rw [← same, Nat.ofDigits_reverse_cons, List.length_cons]
            ring

theorem natural_eq_some_iff {base value : Nat} {digits : List Char} :
    natural? base digits = some value ↔ Numeral base digits value := by
  unfold natural?
  split
  · rename_i empty
    exact ⟨nofun, fun numeral => absurd (List.isEmpty_iff.mp empty) numeral.nonempty⟩
  · rename_i nonempty
    rw [natural_from_eq_some_iff]
    simp only [Nat.zero_mul, Nat.zero_add]
    exact ⟨fun places => ⟨by simpa using nonempty, places⟩, fun numeral => numeral.places⟩

namespace Numeral

variable {base value other : Nat} {digits more : List Char}

theorem unique (numeral : Numeral base digits value) (also : Numeral base digits other) :
    value = other := by
  rw [← natural_eq_some_iff] at numeral also
  exact Option.some.inj (numeral.symm.trans also)

theorem passes (numeral : Numeral base digits value) :
    ∀ digit ∈ digits, (digitValue? base digit).isSome = true := by
  obtain ⟨values, places, -⟩ := numeral.places
  clear numeral
  induction places with
  | nil => simp
  | cons known _ induction => simpa [known] using induction

theorem of_passes (nonempty : digits ≠ [])
    (passes : ∀ digit ∈ digits, (digitValue? base digit).isSome = true) :
    ∃ value, Numeral base digits value := by
  suffices ∃ values, List.Forall₂ (fun digit value => digitValue? base digit = some value) digits
      values by
    obtain ⟨values, places⟩ := this
    exact ⟨_, nonempty, values, places, rfl⟩
  clear nonempty
  induction digits with
  | nil => exact ⟨[], .nil⟩
  | cons digit digits induction =>
      obtain ⟨own, found⟩ := Option.isSome_iff_exists.mp (passes digit (by simp))
      obtain ⟨values, places⟩ := induction fun digit member => passes digit (by simp [member])
      exact ⟨own :: values, .cons found places⟩

theorem append (front : Numeral base digits value) (behind : Numeral base more other) :
    Numeral base (digits ++ more) (value * base ^ more.length + other) := by
  obtain ⟨values, places, rfl⟩ := front.places
  obtain ⟨others, further, rfl⟩ := behind.places
  refine ⟨by simp [front.nonempty], values ++ others, List.rel_append places further, ?_⟩
  rw [List.reverse_append, Nat.ofDigits_append, List.length_reverse, further.length_eq]
  ring

end Numeral

theorem char_ranges (char : Char) :
    (char.isDigit = true ↔ 48 ≤ char.toNat ∧ char.toNat ≤ 57) ∧
      ('a' ≤ char ∧ char ≤ 'f' ↔ 97 ≤ char.toNat ∧ char.toNat ≤ 102) ∧
      ('A' ≤ char ∧ char ≤ 'F' ↔ 65 ≤ char.toNat ∧ char.toNat ≤ 70) :=
  ⟨Char.isDigit_iff_toNat, Iff.rfl, Iff.rfl⟩

theorem decimal_digit (char : Char) : (digitValue? 10 char).isSome = char.isDigit := by
  have ranges := char_ranges char
  unfold digitValue?
  grind

theorem hex_digit (char : Char) : (digitValue? 16 char).isSome = Lexeme.isHexDigit char := by
  have ranges := char_ranges char
  unfold digitValue? Lexeme.isHexDigit
  grind

theorem Numeral.digits {digits : List Char} {value : Nat} (numeral : Numeral 10 digits value) :
    ∀ digit ∈ digits, digit.isDigit = true := by
  intro digit member
  rw [← decimal_digit]
  exact numeral.passes digit member

theorem decimal_numeral {digits : List Char} (nonempty : digits ≠ [])
    (all : ∀ digit ∈ digits, digit.isDigit = true) : ∃ value, Numeral 10 digits value :=
  Numeral.of_passes nonempty fun digit member => (decimal_digit digit).trans (all digit member)

theorem numeral_zero : Numeral 10 ['0'] 0 :=
  ⟨by simp, [0], .cons (by decide) .nil, rfl⟩

/-- A zero in front of digits changes nothing. -/
theorem Numeral.zero_cons {digits : List Char} {value : Nat} (numeral : Numeral 10 digits value) :
    Numeral 10 ('0' :: digits) value := by
  simpa using numeral_zero.append numeral

/-- An exponent and what it says, or no text at all. -/
inductive ExponentText : List Char → Int → Prop
  | none : ExponentText [] 0
  | plain {mark : Char} {digits : List Char} {value : Nat} (marked : mark = 'e' ∨ mark = 'E')
    (numeral : Numeral 10 digits value) : ExponentText (mark :: digits) value
  | plus {mark : Char} {digits : List Char} {value : Nat} (marked : mark = 'e' ∨ mark = 'E')
    (numeral : Numeral 10 digits value) : ExponentText (mark :: '+' :: digits) value
  | minus {mark : Char} {digits : List Char} {value : Nat} (marked : mark = 'e' ∨ mark = 'E')
    (numeral : Numeral 10 digits value) : ExponentText (mark :: '-' :: digits) (-value)

/-- Decimal text and the number it writes: digits, which may have a point in front of them, between
them or behind them, and an exponent. -/
inductive DecimalText : List Char → ℚ → Prop
  | pointed {whole fraction exponent : List Char} {digits : Nat} {power : Int}
    (numeral : Numeral 10 (whole ++ fraction) digits) (raised : ExponentText exponent power) :
    DecimalText (whole ++ '.' :: fraction ++ exponent)
      (digits * 10 ^ (power - fraction.length))
  | whole {whole exponent : List Char} {digits : Nat} {power : Int}
    (numeral : Numeral 10 whole digits) (raised : ExponentText exponent power) :
    DecimalText (whole ++ exponent) (digits * 10 ^ power)

/-- The characters of decimal text. -/
def isDecimalChar (char : Char) : Bool :=
  char.isDigit || char == '.' || char == 'e' || char == 'E' || char == '+' || char == '-'

theorem digit_decimal_char {char : Char} (digit : char.isDigit = true) :
    isDecimalChar char = true := by
  simp [isDecimalChar, digit]

namespace ExponentText

variable {exponent : List Char} {power : Int}

theorem chars (raised : ExponentText exponent power) :
    ∀ char ∈ exponent, isDecimalChar char = true := by
  have inside {digits : List Char} {value : Nat} (numeral : Numeral 10 digits value) :
      ∀ char ∈ digits, isDecimalChar char = true :=
    fun char member => digit_decimal_char (numeral.digits char member)
  cases raised with
  | none => simp
  | plain marked numeral => rcases marked with rfl | rfl <;> simpa using ⟨by decide, inside numeral⟩
  | plus marked numeral | minus marked numeral =>
      rcases marked with rfl | rfl <;> simpa using ⟨by decide, by decide, inside numeral⟩

/-- Only the mark can stand in front. -/
theorem head (raised : ExponentText exponent power) :
    ∀ char ∈ exponent.head?, char = 'e' ∨ char = 'E' := by
  cases raised with
  | none => simp
  | plain marked | plus marked | minus marked => simpa using marked

theorem head_not_digit (raised : ExponentText exponent power) :
    ∀ char ∈ exponent.head?, char.isDigit = false := by
  intro char leads
  rcases raised.head char leads with rfl | rfl <;> decide

theorem read (raised : ExponentText exponent power) :
    Decimal.exponent? exponent = some power := by
  cases raised with
  | none => rfl
  | @plain mark digits value marked numeral =>
      have letter : (mark == 'e' || mark == 'E') = true := by simpa using marked
      have number := natural_eq_some_iff.mpr numeral
      have signless {sign : Char} (apart : sign.isDigit = false) {rest : List Char} :
          digits ≠ sign :: rest := by
        rintro rfl
        simp [numeral.digits sign (by simp)] at apart
      rw [Decimal.exponent?, if_pos letter, number]
      · rfl
      · exact fun rest => signless (by decide)
      · exact fun rest => signless (by decide)
  | @plus mark digits value marked numeral | @minus mark digits value marked numeral =>
      have letter : (mark == 'e' || mark == 'E') = true := by simpa using marked
      rw [Decimal.exponent?, if_pos letter]
      simp [natural_eq_some_iff.mpr numeral]

end ExponentText

/-- The number of a size. -/
def Magnitude.value (size : Magnitude) : ℚ := size.digits * 10 ^ size.exponent

namespace DecimalText

variable {chars : List Char} {value other : ℚ}

theorem chars_decimal (text : DecimalText chars value) :
    ∀ char ∈ chars, isDecimalChar char = true := by
  cases text with
  | @pointed whole fraction exponent digits power numeral raised =>
      have digit (char : Char) (member : char ∈ whole ++ fraction) : isDecimalChar char = true :=
        digit_decimal_char (numeral.digits char member)
      simp only [List.mem_append, List.mem_cons]
      rintro char ((inside | rfl | inside) | inside)
      · exact digit char (by simp [inside])
      · decide
      · exact digit char (by simp [inside])
      · exact raised.chars char inside
  | whole numeral raised =>
      simp only [List.mem_append]
      rintro char (inside | inside)
      · exact digit_decimal_char (numeral.digits char inside)
      · exact raised.chars char inside

theorem read (text : DecimalText chars value) :
    ∃ size, Decimal.magnitude? chars = some size ∧ size.value = value := by
  cases text with
  | @pointed whole fraction exponent digits power numeral raised =>
      have inside : ∀ char ∈ whole, char.isDigit = true :=
        fun char member => numeral.digits char (by simp [member])
      have behind : ∀ char ∈ fraction, char.isDigit = true :=
        fun char member => numeral.digits char (by simp [member])
      have point : ∀ char ∈ ('.' :: (fraction ++ exponent)).head?, char.isDigit = false := by simp
      have front := Text.take_word inside point
      have tail := Text.take_word behind raised.head_not_digit
      refine ⟨⟨digits, power - fraction.length⟩, ?_, rfl⟩
      rw [List.append_assoc, List.cons_append, Decimal.magnitude?]
      simp only [front, tail, natural_eq_some_iff.mpr numeral, raised.read]
  | @whole whole exponent digits power numeral raised =>
      have front := Text.take_word numeral.digits raised.head_not_digit
      refine ⟨⟨digits, power⟩, ?_, rfl⟩
      have shape : exponent = [] ∨ ∃ tail, exponent = 'e' :: tail ∨ exponent = 'E' :: tail := by
        cases raised with
        | none => simp
        | plain marked | plus marked | minus marked =>
            rcases marked with rfl | rfl <;> simp
      simp only [Decimal.magnitude?, front]
      rcases shape with rfl | ⟨tail, rfl | rfl⟩ <;>
        simp [natural_eq_some_iff.mpr numeral, raised.read]

theorem unique (text : DecimalText chars value) (also : DecimalText chars other) :
    value = other := by
  obtain ⟨size, found, rfl⟩ := text.read
  obtain ⟨again, same, rfl⟩ := also.read
  rw [Option.some.inj (found.symm.trans same)]

end DecimalText

end Lsl
