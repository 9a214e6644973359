import Lsl.Token.Lexeme
import Mathlib.Data.List.TakeWhile

/-!
Runs of characters. A word is taken up to the first character that is none of its own, and words,
numbers and names have no white space in them.
-/

set_option autoImplicit false

namespace Lsl.Text

theorem take_word {word rest : List Char} {inside : Char → Bool}
    (word_inside : ∀ char ∈ word, inside char = true)
    (stops : ∀ char ∈ rest.head?, inside char = false) :
    (word ++ rest).takeWhile inside = word ∧ (word ++ rest).dropWhile inside = rest := by
  rw [List.takeWhile_append_of_pos word_inside, List.dropWhile_append_of_pos word_inside]
  cases rest with
  | nil => simp
  | cons char rest => simp [stops char rfl]

/-- Letters, digits, the underscore and the characters between them. -/
theorem name_char_range {char : Char} (name : Lexeme.isNameChar char = true) :
    48 ≤ char.toNat ∧ char.toNat ≤ 122 := by
  have cases : (char.isUpper || char.isLower || char.isDigit || char == '_') = true := name
  simp only [Bool.or_eq_true, beq_iff_eq] at cases
  rcases cases with ((upper | lower) | digit) | rfl
  · obtain ⟨low, high⟩ := of_decide_eq_true upper
    exact ⟨Nat.le_trans (by decide) low, Nat.le_trans high (by decide)⟩
  · obtain ⟨low, high⟩ := Bool.and_eq_true_iff.mp lower
    exact ⟨Nat.le_trans (by decide) (of_decide_eq_true low),
      Nat.le_trans (of_decide_eq_true high) (by decide)⟩
  · obtain ⟨low, high⟩ := Bool.and_eq_true_iff.mp digit
    exact ⟨of_decide_eq_true low, Nat.le_trans (of_decide_eq_true high) (by decide)⟩
  · decide

theorem name_char_not_blank {char : Char} (name : Lexeme.isNameChar char = true) :
    isBlank char = false := by
  obtain ⟨low, high⟩ := name_char_range name
  simp only [isBlank, Bool.or_eq_false_iff, Bool.and_eq_false_iff, decide_eq_false_iff_not,
    beq_eq_false_iff_ne]
  omega

end Lsl.Text
