import Lsl.Proofs.Literal.Numerals

/-!
The numbers of scripts and those of generated code. A float of a script is decimal text with or
without a suffix; generated code wants digits on both sides of its point. What is written for a
float is such a number of the same value, and stays as it is when it is written again.
-/

set_option autoImplicit false

namespace Lsl

/-- Hexadecimal digits behind their mark. -/
inductive HexText : List Char → Nat → Prop
  | marked {mark : Char} {digits : List Char} {value : Nat} (marked : mark = 'x' ∨ mark = 'X')
    (numeral : Numeral 16 digits value) : HexText ('0' :: mark :: digits) value

/-- A float of a script, which may have a suffix. -/
inductive FloatText : List Char → ℚ → Prop
  | bare {body : List Char} {value : ℚ} (text : DecimalText body value) : FloatText body value
  | suffixed {body : List Char} {suffix : Char} {value : ℚ} (text : DecimalText body value)
    (ends : Literal.isFloatSuffix suffix = true) : FloatText (body ++ [suffix]) value

namespace Target

/-- A float of generated code: digits on both sides of a point, and perhaps an exponent. -/
inductive FloatNumber : List Char → ℚ → Prop
  | pointed {whole fraction exponent : List Char} {digits : Nat} {power : Int}
    (front : whole ≠ []) (behind : fraction ≠ []) (numeral : Numeral 10 (whole ++ fraction) digits)
    (raised : ExponentText exponent power) :
    FloatNumber (whole ++ '.' :: fraction ++ exponent) (digits * 10 ^ (power - fraction.length))

/-- A number of generated code: decimal or hexadecimal digits, or a float. -/
inductive Number : List Char → ℚ → Prop
  | decimal {chars : List Char} {value : Nat} (numeral : Numeral 10 chars value) :
    Number chars value
  | hex {chars : List Char} {value : Nat} (text : HexText chars value) : Number chars value
  | float {chars : List Char} {value : ℚ} (number : FloatNumber chars value) : Number chars value

/-- A number with one minus in front of it or with none. -/
inductive SignedNumber : List Char → ℚ → Prop
  | plain {chars : List Char} {value : ℚ} (number : Number chars value) : SignedNumber chars value
  | negative {chars : List Char} {value : ℚ} (number : Number chars value) :
    SignedNumber ('-' :: chars) (-value)

end Target

/-! ### One value for a text -/

theorem HexText.unique {chars : List Char} {value other : Nat} (text : HexText chars value)
    (also : HexText chars other) : value = other := by
  cases text with
  | marked _ numeral =>
      cases also with
      | marked _ same => exact numeral.unique same

theorem HexText.not_decimal {chars : List Char} {value : Nat} {other : ℚ}
    (text : HexText chars value) : ¬ DecimalText chars other := by
  intro also
  cases text with
  | @marked mark digits value marked numeral =>
      have plain := also.chars_decimal mark (by simp)
      rcases marked with rfl | rfl <;> exact absurd plain (by decide)

theorem HexText.not_point {chars : List Char} {value : Nat} (text : HexText chars value) :
    '.' ∉ chars := by
  cases text with
  | marked marked numeral =>
      intro point
      simp only [List.mem_cons] at point
      rcases point with zero | rfl | inside
      · exact absurd zero (by decide)
      · exact absurd marked (by decide)
      · exact absurd (numeral.passes '.' inside) (by decide)

namespace Target

variable {chars : List Char} {value other : ℚ}

theorem FloatNumber.point (number : FloatNumber chars value) : '.' ∈ chars := by
  cases number with
  | pointed => simp

theorem FloatNumber.decimal (number : FloatNumber chars value) : DecimalText chars value := by
  cases number with
  | pointed front behind numeral raised => exact .pointed numeral raised

theorem Number.cases (number : Number chars value) :
    DecimalText chars value ∨ ∃ digits, HexText chars digits ∧ value = digits := by
  cases number with
  | decimal numeral =>
      have text := DecimalText.whole numeral .none
      exact .inl (by simpa using text)
  | hex text => exact .inr ⟨_, text, rfl⟩
  | float number => exact .inl number.decimal

theorem Number.unique (number : Number chars value) (also : Number chars other) :
    value = other := by
  rcases number.cases, also.cases with ⟨text | ⟨digits, text, rfl⟩, same | ⟨others, same, rfl⟩⟩
  · exact text.unique same
  · exact absurd text same.not_decimal
  · exact absurd same text.not_decimal
  · rw [text.unique same]

theorem Number.head (number : Number chars value) :
    ∃ first rest, chars = first :: rest ∧ first.isDigit = true := by
  cases number with
  | decimal numeral =>
      obtain ⟨first, rest, rfl⟩ := List.exists_cons_of_ne_nil numeral.nonempty
      exact ⟨first, rest, rfl, numeral.digits first (by simp)⟩
  | hex text =>
      cases text with
      | marked => exact ⟨'0', _, rfl, by decide⟩
  | float number =>
      cases number with
      | pointed front behind numeral raised =>
          obtain ⟨first, rest, rfl⟩ := List.exists_cons_of_ne_nil front
          exact ⟨first, _, rfl, numeral.digits first (by simp)⟩

theorem Number.not_signed (rest : List Char) : ¬ Number ('-' :: rest) value := by
  intro number
  obtain ⟨first, rest, same, digit⟩ := number.head
  cases same
  exact absurd digit (by decide)

theorem SignedNumber.unique (number : SignedNumber chars value)
    (also : SignedNumber chars other) : value = other := by
  cases number with
  | plain number =>
      cases also with
      | plain same => exact number.unique same
      | negative => exact absurd number (Number.not_signed _)
  | negative number =>
      cases also with
      | plain same => exact absurd same (Number.not_signed _)
      | negative same => rw [number.unique same]

theorem SignedNumber.single (rest : List Char) : ¬ SignedNumber ('-' :: '-' :: rest) value := by
  intro number
  cases number with
  | plain number => exact Number.not_signed _ number
  | negative number => exact Number.not_signed _ number

end Target

namespace Literal

/-! ### Which numbers fit -/

theorem signed_numeral {chars : List Char} {value : Nat} (numeral : Numeral 10 chars value) :
    signed? chars = some (false, value) := by
  have unsigned {sign : Char} (apart : sign.isDigit = false) (rest : List Char) :
      chars ≠ sign :: rest := by
    rintro rfl
    simp [numeral.digits sign (by simp)] at apart
  rw [signed?, natural_eq_some_iff.mpr numeral]
  · rfl
  · exact unsigned (by decide)
  · exact unsigned (by decide)

theorem integer_fits_iff {raw : String} {value : Nat} (numeral : Numeral 10 raw.toList value) :
    integerFit raw = .fits ↔ value ≤ 2147483647 := by
  rw [integerFit, signed_numeral numeral]
  simp

theorem drop_marks_plain {first second : Char} {chars : List Char} (plain : second ∉ chars) :
    dropMarks first second chars = chars := by
  unfold dropMarks
  split
  · rename_i a b rest
    rw [if_neg]
    rintro ⟨rfl, rfl⟩
    simp at plain
  · rfl

/-- However many zeros lead it, a hexadecimal number fits exactly if its value does. -/
theorem hex_fits_iff {raw : String} {value : Nat} (text : HexText raw.toList value) :
    hexFit raw = .fits ↔ value ≤ 4294967295 := by
  generalize written : raw.toList = chars at text
  cases text with
  | @marked mark digits value marked numeral =>
      have digit : ∀ char ∈ digits, Lexeme.isHexDigit char = true := by
        intro char member
        rw [← hex_digit]
        exact numeral.passes char member
      have plain {other : Char} (none : Lexeme.isHexDigit other = false) : other ∉ digits := by
        intro member
        simp [digit other member] at none
      have stripped : dropMarks '0' 'X' (dropMarks '0' 'x' ('0' :: mark :: digits)) = digits := by
        have small : dropMarks '0' 'x' digits = digits := drop_marks_plain (plain (by decide))
        have large : dropMarks '0' 'X' digits = digits := drop_marks_plain (plain (by decide))
        rcases marked with rfl | rfl <;> simp [dropMarks, small, large]
      have number := natural_eq_some_iff.mpr numeral
      have bound : powerOfTwo 32 = 4294967296 := by decide
      unfold hexFit
      rw [written, stripped]
      dsimp only
      split
      all_goals
        rename_i found
        split at found
        · exact absurd (digit '+' (by simp)) (by decide)
      · obtain rfl := Option.some.inj (found.symm.trans number)
        simp [bound, Nat.lt_succ_iff]
      · cases found.symm.trans number

/-! ### How floats are written -/

theorem decimal_char_plain {char : Char} (plain : isDecimalChar char = true) :
    isFloatSuffix char = false := by
  rw [Bool.eq_false_iff]
  intro suffix
  simp only [isFloatSuffix, Bool.or_eq_true, beq_iff_eq] at suffix
  rcases suffix with rfl | rfl <;> exact absurd plain (by decide)

theorem float_body_append {body suffix : List Char}
    (plain : ∀ char ∈ body, isFloatSuffix char = false)
    (ends : ∀ char ∈ suffix, isFloatSuffix char = true) : floatBody (body ++ suffix) = body := by
  have stops : ∀ char ∈ body.reverse.head?, isFloatSuffix char = false :=
    fun char leads => plain char (List.mem_reverse.mp (List.mem_of_head? leads))
  have ends : ∀ char ∈ suffix.reverse, isFloatSuffix char = true := by simpa using ends
  have dropped := (Text.take_word ends stops).2
  rw [floatBody, List.reverse_append, dropped, List.reverse_reverse]

theorem float_body_text {chars : List Char} {value : ℚ} (text : FloatText chars value) :
    DecimalText (floatBody chars) value := by
  have plain {body : List Char} (text : DecimalText body value) :
      ∀ char ∈ body, isFloatSuffix char = false :=
    fun char member => decimal_char_plain (text.chars_decimal char member)
  cases text with
  | bare text =>
      have whole := float_body_append (plain text) (List.forall_mem_nil _)
      rw [List.append_nil] at whole
      rwa [whole]
  | suffixed text ends => rwa [float_body_append (plain text) (by simpa using ends)]

theorem float_text_unique {chars : List Char} {value other : ℚ} (text : FloatText chars value)
    (also : FloatText chars other) : value = other :=
  (float_body_text text).unique (float_body_text also)

/-- Digits, and a zero where there are none. -/
def padded (digits : List Char) : List Char := if digits.isEmpty then ['0'] else digits

theorem padded_ne_nil (digits : List Char) : padded digits ≠ [] := by
  unfold padded
  split
  · simp
  · simp_all

theorem padded_eq_self {digits : List Char} (nonempty : digits ≠ []) : padded digits = digits := by
  simp [padded, nonempty]

/-- The zeros that are put around digits change their number as the places behind the point do. -/
theorem padded_numeral {whole fraction : List Char} {digits : Nat}
    (numeral : Numeral 10 (whole ++ fraction) digits) :
    ∃ more, (padded fraction).length = fraction.length + more ∧
      Numeral 10 (padded whole ++ padded fraction) (digits * 10 ^ more) := by
  by_cases empty : fraction = []
  · subst empty
    rw [List.append_nil] at numeral
    refine ⟨1, rfl, ?_⟩
    rw [padded_eq_self numeral.nonempty]
    exact numeral.append numeral_zero
  · refine ⟨0, by rw [padded_eq_self empty]; rfl, ?_⟩
    rw [padded_eq_self empty, pow_zero, Nat.mul_one]
    cases whole with
    | nil => exact numeral.zero_cons
    | cons first whole => exact numeral

theorem digit_not_point {char : Char} (digit : char.isDigit = true) : char ≠ '.' := by
  rintro rfl
  exact absurd digit (by decide)

theorem value_shifted (digits more : Nat) (power : Int) :
    (digits : ℚ) * 10 ^ power = (digits * 10 ^ more : Nat) * 10 ^ (power - more) := by
  have split : (10 : ℚ) ^ power = 10 ^ more * 10 ^ (power - more) := by
    rw [← zpow_natCast, ← zpow_add₀ (by norm_num)]
    congr 1
    ring
  rw [split]
  push_cast
  ring

theorem full_mantissa_pointed {whole fraction : List Char} {digits : Nat}
    (numeral : Numeral 10 (whole ++ fraction) digits) :
    fullMantissa (whole ++ '.' :: fraction) = padded whole ++ '.' :: padded fraction := by
  have begins : (if (whole ++ '.' :: fraction).head? = some '.' then
      '0' :: (whole ++ '.' :: fraction) else whole ++ '.' :: fraction) =
        padded whole ++ '.' :: fraction := by
    cases whole with
    | nil => rfl
    | cons first whole => simp [padded, digit_not_point (numeral.digits first (by simp))]
  have ends : (if (padded whole ++ '.' :: fraction).getLast? = some '.' then
      padded whole ++ '.' :: fraction ++ ['0'] else padded whole ++ '.' :: fraction) =
        padded whole ++ '.' :: padded fraction := by
    by_cases empty : fraction = []
    · simp [empty, padded]
    · have last : (padded whole ++ '.' :: fraction).getLast? ≠ some '.' := by
        intro point
        rw [List.append_cons, List.getLast?_append_of_ne_nil _ empty] at point
        have inside := List.mem_append_right whole (List.mem_of_getLast? point)
        exact digit_not_point (numeral.digits '.' inside) rfl
      rw [if_neg last, padded_eq_self empty]
  rw [fullMantissa]
  simp only [begins, ends]
  simp

theorem full_mantissa_whole {whole : List Char}
    (digits : ∀ digit ∈ whole, digit.isDigit = true) :
    fullMantissa whole = whole ++ ['.', '0'] := by
  have plain : '.' ∉ whole := fun member => digit_not_point (digits '.' member) rfl
  have begins : whole.head? ≠ some '.' := fun leads => plain (List.mem_of_head? leads)
  have ends : whole.getLast? ≠ some '.' := fun last => plain (List.mem_of_getLast? last)
  simp [fullMantissa, begins, ends, plain]

theorem split_exponent {mantissa exponent : List Char} {power : Int}
    (plain : ∀ char ∈ mantissa, char.isDigit = true ∨ char = '.')
    (raised : ExponentText exponent power) :
    (mantissa ++ exponent).takeWhile (!isExponentMark ·) = mantissa ∧
      (mantissa ++ exponent).dropWhile (!isExponentMark ·) = exponent := by
  refine Text.take_word ?_ ?_
  · intro char member
    rw [Bool.not_eq_true', Bool.eq_false_iff]
    intro mark
    simp only [isExponentMark, Bool.or_eq_true, beq_iff_eq] at mark
    rcases mark with rfl | rfl <;> exact absurd (plain _ member) (by decide)
  · intro char leads
    rcases raised.head char leads with rfl | rfl <;> rfl

theorem pointed_mantissa {whole fraction : List Char} {digits : Nat}
    (numeral : Numeral 10 (whole ++ fraction) digits) :
    ∀ char ∈ whole ++ '.' :: fraction, char.isDigit = true ∨ char = '.' := by
  intro char member
  simp only [List.mem_append, List.mem_cons] at member
  rcases member with inside | rfl | inside
  · exact .inl (numeral.digits char (List.mem_append_left _ inside))
  · exact .inr rfl
  · exact .inl (numeral.digits char (List.mem_append_right _ inside))

/-- A float is written with digits on both sides of its point and without its suffix, and the number
stays the same. -/
theorem format_float_number {raw : String} {value : ℚ} (text : FloatText raw.toList value) :
    Target.FloatNumber (formatFloat raw).toList value := by
  have body := float_body_text text
  rw [formatFloat, String.toList_ofList]
  generalize floatBody raw.toList = chars at body
  cases body with
  | @pointed whole fraction exponent digits power numeral raised =>
      have parts := split_exponent (pointed_mantissa numeral) raised
      obtain ⟨more, longer, padding⟩ := padded_numeral numeral
      have number := Target.FloatNumber.pointed (padded_ne_nil whole) (padded_ne_nil fraction)
        padding raised
      simp only [parts, full_mantissa_pointed numeral]
      convert number using 1
      rw [value_shifted digits more, longer]
      push_cast
      rw [sub_sub]
  | @whole whole exponent digits power numeral raised =>
      have parts := split_exponent (fun digit member => .inl (numeral.digits digit member)) raised
      have number := Target.FloatNumber.pointed numeral.nonempty (List.cons_ne_nil _ _)
        (numeral.append numeral_zero) raised
      simp only [parts, full_mantissa_whole numeral.digits]
      convert number using 1
      exact value_shifted digits 1 power

theorem format_float_eq {raw : String} {value : ℚ}
    (number : Target.FloatNumber raw.toList value) : formatFloat raw = raw := by
  have plain : ∀ char ∈ raw.toList, isFloatSuffix char = false :=
    fun char member => decimal_char_plain (number.decimal.chars_decimal char member)
  have body := float_body_append plain (List.forall_mem_nil _)
  rw [List.append_nil] at body
  rw [← String.toList_inj, formatFloat, String.toList_ofList, body]
  generalize raw.toList = chars at number
  cases number with
  | @pointed whole fraction exponent digits power front behind numeral raised =>
      have parts := split_exponent (pointed_mantissa numeral) raised
      rw [parts.1, parts.2, full_mantissa_pointed numeral, padded_eq_self front,
        padded_eq_self behind]

end Literal

end Lsl
