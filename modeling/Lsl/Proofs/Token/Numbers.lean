import Lsl.Proofs.Literal.Formatting
import Lsl.Proofs.Token.Reach

/-!
The texts of number tokens: an integer has decimal digits, a hexadecimal number has digits behind
its mark, and a float is decimal text with or without a suffix.
-/

set_option autoImplicit false

namespace Lsl

/-- A text as number tokens of the kind have it. -/
def TokenKind.Numbers (kind : TokenKind) (text : List Char) : Prop :=
  match kind with
  | .integer => ∃ value, Numeral 10 text value
  | .hex => ∃ value, HexText text value
  | .float => ∃ value, FloatText text value
  | _ => True

def TokenKind.isNumber (kind : TokenKind) : Bool :=
  kind == .integer || kind == .hex || kind == .float

theorem TokenKind.numbers_other {kind : TokenKind} (other : kind.isNumber = false)
    (text : List Char) : kind.Numbers text := by
  cases kind <;> trivial

namespace Lexeme

/-- A number token has a text of its kind. -/
def Numbers (lexeme : Lexeme) (chars : List Char) : Prop :=
  ∀ kind, lexeme.class_ = .token kind → kind.Numbers (chars.take lexeme.length)

theorem run_passes (passes : Char → Bool) (chars : List Char) :
    ∀ char ∈ chars.take (run passes chars), passes char = true := by
  rw [take_run]
  exact fun char member => List.mem_takeWhile_imp member

theorem run_nonempty {passes : Char → Bool} {chars : List Char} (some : run passes chars ≠ 0) :
    chars.take (run passes chars) ≠ [] := by
  rw [take_run]
  exact List.ne_nil_of_length_pos (Nat.pos_of_ne_zero some)

theorem run_numeral {chars : List Char} (some : run Char.isDigit chars ≠ 0) :
    ∃ value, Numeral 10 (chars.take (run Char.isDigit chars)) value :=
  decimal_numeral (run_nonempty some) (run_passes _ chars)

theorem exponent_text (chars : List Char) :
    ∃ power, ExponentText (chars.take (exponentLength chars)) power := by
  cases chars with
  | nil => exact ⟨0, .none⟩
  | cons mark rest =>
      have nothing : ∃ power, ExponentText ((mark :: rest).take 0) power := ⟨0, .none⟩
      simp only [exponentLength]
      split
      · rename_i letter
        have marked : mark = 'e' ∨ mark = 'E' := by simpa using letter
        cases rest with
        | nil => exact nothing
        | cons sign digits =>
            dsimp only
            split
            · rename_i signed
              split
              · exact nothing
              · rename_i some
                obtain ⟨value, numeral⟩ := run_numeral some
                rw [Nat.add_comm, List.take_succ_cons, List.take_succ_cons]
                rw [Bool.or_eq_true, beq_iff_eq, beq_iff_eq] at signed
                rcases signed with rfl | rfl
                · exact ⟨_, .plus marked numeral⟩
                · exact ⟨_, .minus marked numeral⟩
            · split
              · exact nothing
              · rename_i some
                obtain ⟨value, numeral⟩ := run_numeral some
                rw [Nat.add_comm, List.take_succ_cons]
                exact ⟨_, .plain marked numeral⟩
      · exact nothing

/-- What an exponent and a suffix behind a mantissa make of it. -/
theorem float_numbers {chars : List Char} {mantissa : Nat}
    (decimal : ∀ exponent power, ExponentText exponent power →
      ∃ value, DecimalText (chars.take mantissa ++ exponent) value) :
    (floatOf chars mantissa).Numbers chars := by
  intro kind same
  cases same
  obtain ⟨power, raised⟩ := exponent_text (chars.drop mantissa)
  obtain ⟨value, text⟩ := decimal _ power raised
  refine ⟨value, ?_⟩
  simp only [floatOf, List.take_add]
  cases behind : chars.drop (mantissa + exponentLength (chars.drop mantissa)) with
  | nil => simpa using FloatText.bare text
  | cons suffix rest =>
      rw [suffix_cons]
      split
      · rename_i ends
        exact .suffixed text (by simpa [Literal.isFloatSuffix] using ends)
      · simpa using FloatText.bare text

/-- A mantissa with a point, which has a digit in front of it or behind it. -/
theorem pointed_numbers {chars whole rest : List Char} (split : chars = whole ++ '.' :: rest)
    (front : ∀ digit ∈ whole, digit.isDigit = true)
    (some : whole ≠ [] ∨ run Char.isDigit rest ≠ 0) :
    (floatOf chars (whole.length + 1 + run Char.isDigit rest)).Numbers chars := by
  subst split
  let fraction := rest.take (run Char.isDigit rest)
  have mantissa : (whole ++ '.' :: rest).take (whole.length + 1 + run Char.isDigit rest) =
      whole ++ '.' :: fraction := by
    rw [Nat.add_assoc, List.take_length_add_append, Nat.add_comm, List.take_succ_cons]
  have digits : ∀ digit ∈ whole ++ fraction, digit.isDigit = true := by
    intro digit member
    rcases List.mem_append.mp member with inside | inside
    · exact front digit inside
    · exact run_passes _ rest digit inside
  have nonempty : whole ++ fraction ≠ [] := by
    intro empty
    obtain ⟨before, after⟩ := List.append_eq_nil_iff.mp empty
    exact some.elim (absurd before) fun more => run_nonempty more after
  obtain ⟨value, numeral⟩ := decimal_numeral nonempty digits
  refine float_numbers fun exponent power raised => ?_
  rw [mantissa]
  exact ⟨_, .pointed numeral raised⟩

theorem number_numbers {chars : List Char} (some : run Char.isDigit chars ≠ 0) :
    (number chars).Numbers chars := by
  have whole := run_numeral some
  rw [number_eq]
  split
  · rename_i point
    obtain ⟨rest, behind⟩ := List.head?_eq_some_iff.mp point
    have split : chars = chars.take (run Char.isDigit chars) ++ '.' :: rest := by
      rw [← behind, List.take_append_drop]
    have length : (chars.take (run Char.isDigit chars)).length = run Char.isDigit chars :=
      List.length_take_of_le (run_le _ chars)
    have numbers := pointed_numbers split (run_passes _ chars) (.inl (run_nonempty some))
    rw [length] at numbers
    rwa [← List.drop_drop, behind]
  split
  · intro kind same
    cases same
    exact whole
  · obtain ⟨value, numeral⟩ := whole
    exact float_numbers fun exponent power raised => ⟨_, .whole numeral raised⟩

theorem hex_numbers {chars : List Char} {lexeme : Lexeme} (found : hex? chars = some lexeme) :
    lexeme.Numbers chars := by
  unfold hex? at found
  split at found
  · rename_i mark rest
    split at found
    · rename_i marked
      cases found
      intro kind same
      cases same
      simp only [Bool.and_eq_true, Bool.or_eq_true, beq_iff_eq, bne_iff_ne] at marked
      have digits : ∀ digit ∈ rest.take (run isHexDigit rest),
          (digitValue? 16 digit).isSome = true :=
        fun digit member => (hex_digit digit).trans (run_passes _ rest digit member)
      obtain ⟨value, numeral⟩ := Numeral.of_passes (run_nonempty marked.2) digits
      rw [Nat.add_comm, List.take_succ_cons, List.take_succ_cons]
      exact ⟨value, .marked marked.1 numeral⟩
    · cases found
  · cases found

theorem mark_numbers (first : Char) (rest : List Char) :
    (mark first rest).Numbers (first :: rest) := by
  intro kind own
  refine TokenKind.numbers_other ?_ _
  rcases mark_cases first rest with ⟨_, _, _, -, found, same⟩ | ⟨_, found, same⟩ | same <;>
    rw [same] at own <;> cases own
  · unfold pairKind? at found
    split at found <;> cases found <;> rfl
  · unfold singleKind? at found
    split at found <;> cases found <;> rfl

theorem front_numbers (first : Char) (rest : List Char) :
    (front first rest).Numbers (first :: rest) := by
  unfold front
  split
  · intro kind same
    cases same
  split
  · cases comment : comment? rest with
    | none => exact mark_numbers first rest
    | some lexeme =>
        intro kind same
        exact absurd same (comment_no_token comment kind)
  split
  · rename_i digit
    cases hex : hex? (first :: rest) with
    | none =>
        refine number_numbers ?_
        simp [run, digit]
    | some lexeme => exact hex_numbers hex
  split
  · rename_i point
    simp only [Bool.and_eq_true, beq_iff_eq, bne_iff_ne] at point
    obtain ⟨rfl, some⟩ := point
    have split : '.' :: rest = [] ++ '.' :: rest := rfl
    simpa using pointed_numbers split (by simp) (.inr some)
  split
  · split
    · intro kind same
      cases same
      trivial
    · intro kind same
      cases same
  split
  · intro kind same
    cases same
    refine TokenKind.numbers_other ?_ _
    unfold wordKind
    split <;> rfl
  · exact mark_numbers first rest

end Lexeme

theorem tokenize_numbers {source : String} {token : Token} (member : token ∈ tokenize source) :
    token.kind.Numbers token.text.toList := by
  rcases List.mem_append.mp member with scanned | closing
  · obtain ⟨piece, inside, found⟩ := List.mem_filterMap.mp scanned
    obtain ⟨first, rest, start, own⟩ := scan_from_front _ _ _ piece inside
    have numbers := Lexeme.front_numbers first rest
    unfold Lexeme.scanned at own
    dsimp only at own
    split at own
    · simp at own
    · rename_i kind class_
      obtain rfl := List.mem_singleton.mp own
      obtain rfl := Option.some.inj found
      simpa using numbers kind class_
    · obtain rfl := List.mem_singleton.mp own
      cases found
  · obtain rfl := List.mem_singleton.mp closing
    trivial

end Lsl
