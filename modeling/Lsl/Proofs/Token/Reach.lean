import Lsl.Proofs.Text.Words
import Lsl.Proofs.Token.Texts

/-!
How far reading looks. Each rule measures a run of characters and sees the character behind it, but
never a slash or white space beyond the first one. So a token that was read in front of some text is
read in front of any other text that begins with the same characters and then ends them.
-/

set_option autoImplicit false

namespace Lsl.Lexeme

/-- Text that belongs to no piece in front of it: it begins with white space or a slash, if at all. -/
def Ends (chars : List Char) : Prop :=
  ∀ char ∈ chars.head?, Text.isBlank char = true ∨ char = '/'

/-- No character that ends a piece passes. -/
def Solid (passes : Char → Bool) : Prop :=
  ∀ char, Text.isBlank char = true ∨ char = '/' → passes char = false

theorem solid_of_name {passes : Char → Bool}
    (words : ∀ char, passes char = true → isNameChar char = true) : Solid passes := by
  intro char ends
  by_contra passed
  have name := words char (by simpa using passed)
  rcases ends with blank | rfl
  · simp [Text.name_char_not_blank name] at blank
  · exact absurd name (by decide)

theorem name_solid : Solid isNameChar := solid_of_name fun _ name => name

theorem digit_solid : Solid Char.isDigit :=
  solid_of_name fun char digit => by simp [isNameChar, Char.isAlphanum, digit]

theorem Ends.not_passed {passes : Char → Bool} {chars : List Char} (ends : Ends chars)
    (solid : Solid passes) : run passes chars = 0 := by
  cases chars with
  | nil => rfl
  | cons char rest => simp [run, solid char (ends char rfl)]

/-- A measure of what a text begins with that is the same in front of every text that ends it. -/
def Local (measure : List Char → Nat) : Prop :=
  ∀ {text back other : List Char}, measure (text ++ back) ≤ text.length → Ends other →
    measure (text ++ other) = measure (text ++ back)

theorem run_cons (passes : Char → Bool) (char : Char) (rest : List Char) :
    run passes (char :: rest) = if passes char then run passes rest + 1 else 0 := by
  unfold run
  split <;> simp [*]

theorem run_local {passes : Char → Bool} (solid : Solid passes) : Local (run passes) := by
  intro text back other within ends
  induction text with
  | nil => exact (ends.not_passed solid).trans (Nat.le_zero.mp within).symm
  | cons char text induction =>
      rw [List.cons_append, List.cons_append, run_cons, run_cons]
      rw [List.cons_append, run_cons] at within
      split at within
      · rename_i passed
        rw [if_pos passed, if_pos passed, induction (by simpa using within)]
      · rename_i stopped
        rw [if_neg stopped, if_neg stopped]

theorem hex_digit_solid : Solid isHexDigit := solid_of_name hex_digit_name

theorem Ends.head_ne {char other : Char} {rest : List Char} (ends : Ends (char :: rest))
    (visible : Text.isBlank other = false) (plain : other ≠ '/') : char ≠ other := by
  rintro rfl
  rcases ends char rfl with blank | slash
  · simp [visible] at blank
  · exact plain slash

theorem exponent_none {chars : List Char} (ends : Ends chars) : exponentLength chars = 0 := by
  cases chars with
  | nil => rfl
  | cons char rest =>
      have small : char ≠ 'e' := ends.head_ne (by decide) (by decide)
      have large : char ≠ 'E' := ends.head_ne (by decide) (by decide)
      simp [exponentLength, small, large]

/-- Behind the letter of an exponent there are digits, with a sign in front of them or not. -/
theorem exponent_local : Local exponentLength := by
  intro text back other within ends
  match text with
  | [] => exact (exponent_none ends).trans (Nat.le_zero.mp within).symm
  | [mark] =>
      have nothing : exponentLength (mark :: back) = 0 := by
        simp only [List.cons_append, List.nil_append, exponentLength] at within ⊢
        grind
      have signless : exponentLength (mark :: other) = 0 := by
        cases other with
        | nil => simp [exponentLength]
        | cons char rest =>
            have plus : char ≠ '+' := ends.head_ne (by decide) (by decide)
            have minus : char ≠ '-' := ends.head_ne (by decide) (by decide)
            simp [exponentLength, plus, minus, ends.not_passed digit_solid]
      exact signless.trans nothing.symm
  | mark :: sign :: text =>
      have signed := @run_local _ digit_solid text back other
      have plain := @run_local _ digit_solid (sign :: text) back other
      simp only [List.cons_append, exponentLength, List.length_cons] at within plain ⊢
      grind

theorem suffix_cons (char : Char) (rest : List Char) :
    suffixLength (char :: rest) = if char = 'f' ∨ char = 'F' then 1 else 0 := by
  unfold suffixLength
  split <;> simp_all

theorem suffix_local : Local suffixLength := by
  intro text back other within ends
  cases text with
  | cons char text => rw [List.cons_append, List.cons_append, suffix_cons, suffix_cons]
  | nil =>
      refine Eq.trans ?_ (Nat.le_zero.mp within).symm
      cases other with
      | nil => rfl
      | cons char rest =>
          have small : char ≠ 'f' := ends.head_ne (by decide) (by decide)
          have large : char ≠ 'F' := ends.head_ne (by decide) (by decide)
          simp [suffix_cons, small, large]

variable {text back other : List Char}

/-- The same behind the first characters of the text. -/
theorem Local.behind {measure : List Char → Nat} (same : Local measure) {count : Nat}
    (within : count + measure ((text ++ back).drop count) ≤ text.length) (ends : Ends other) :
    measure ((text ++ other).drop count) = measure ((text ++ back).drop count) := by
  have inside : count ≤ text.length := by omega
  rw [List.drop_append_of_le_length inside] at within
  rw [List.drop_append_of_le_length inside, List.drop_append_of_le_length inside]
  refine same ?_ ends
  rw [List.length_drop]
  omega

theorem float_reach {mantissa : Nat} (within : (floatOf (text ++ back) mantissa).length ≤ text.length)
    (ends : Ends other) : floatOf (text ++ other) mantissa = floatOf (text ++ back) mantissa := by
  simp only [floatOf] at within ⊢
  have exponent := @Local.behind text back other _ exponent_local mantissa (by omega) ends
  rw [exponent]
  have suffix := @Local.behind text back other _ suffix_local _ within ends
  rw [suffix]

theorem mantissa_within_float (chars : List Char) (mantissa : Nat) :
    mantissa ≤ (floatOf chars mantissa).length := by
  simp only [floatOf]
  omega

theorem number_eq (chars : List Char) :
    number chars = if (chars.drop (run Char.isDigit chars)).head? = some '.' then
        floatOf chars (run Char.isDigit chars + 1 +
          run Char.isDigit (chars.drop (run Char.isDigit chars + 1)))
      else if exponentLength (chars.drop (run Char.isDigit chars)) = 0 then
        ⟨.token .integer, run Char.isDigit chars⟩
      else floatOf chars (run Char.isDigit chars) := by
  simp only [number, ← List.drop_drop]
  split
  next rest behind => simp [behind]
  next rest other =>
    have pointless : (chars.drop (run Char.isDigit chars)).head? ≠ some '.' := by
      intro point
      obtain ⟨rest, behind⟩ := List.head?_eq_some_iff.mp point
      exact other rest behind
    rw [if_neg pointless]

theorem digits_within_number (chars : List Char) :
    run Char.isDigit chars ≤ (number chars).length := by
  rw [number_eq]
  split
  · exact Nat.le_trans (by omega) (mantissa_within_float chars _)
  split
  · exact Nat.le_refl _
  · exact mantissa_within_float chars _

/-- A point behind digits is seen where it belongs to the piece. -/
theorem point_reach {digits : Nat} (inside : digits ≤ text.length)
    (pointed : ((text ++ back).drop digits).head? = some '.' → digits + 1 ≤ text.length)
    (ends : Ends other) : ((text ++ other).drop digits).head? = some '.' ↔
      ((text ++ back).drop digits).head? = some '.' := by
  rw [List.drop_append_of_le_length inside, List.drop_append_of_le_length inside] at *
  cases behind : text.drop digits with
  | cons char rest => rfl
  | nil =>
      have whole := List.drop_eq_nil_iff.mp behind
      refine ⟨fun point => absurd (ends '.' point) (by decide), fun point => ?_⟩
      rw [behind] at pointed
      exact absurd (pointed point) (by omega)

theorem number_reach (within : (number (text ++ back)).length ≤ text.length) (ends : Ends other) :
    number (text ++ other) = number (text ++ back) := by
  have inside := (digits_within_number (text ++ back)).trans within
  rw [number_eq] at within
  rw [number_eq, number_eq, run_local digit_solid inside ends]
  generalize run Char.isDigit (text ++ back) = digits at within inside ⊢
  have pointed (point : ((text ++ back).drop digits).head? = some '.') :
      digits + 1 + run Char.isDigit ((text ++ back).drop (digits + 1)) ≤ text.length := by
    rw [if_pos point] at within
    exact (mantissa_within_float _ _).trans within
  have same := point_reach inside (fun point => by have := pointed point; omega) ends
  by_cases point : ((text ++ back).drop digits).head? = some '.'
  · have fraction := Local.behind (@run_local _ digit_solid) (pointed point) ends
    rw [if_pos point] at within
    rw [if_pos (same.mpr point), if_pos point, fraction]
    exact float_reach within ends
  · rw [if_neg point] at within
    have exponent : digits + exponentLength ((text ++ back).drop digits) ≤ text.length := by
      split at within
      · omega
      · simp only [floatOf] at within
        omega
    rw [if_neg (mt same.mp point), if_neg point, exponent_local.behind exponent ends]
    by_cases whole : exponentLength ((text ++ back).drop digits) = 0
    · rw [if_pos whole, if_pos whole]
    · rw [if_neg whole] at within ⊢
      rw [if_neg whole]
      exact float_reach within ends

theorem hex_cons (first mark : Char) (rest : List Char) :
    hex? (first :: mark :: rest) =
      if (first = '0' ∧ (mark = 'x' ∨ mark = 'X')) ∧ run isHexDigit rest ≠ 0 then
        some ⟨.token .hex, 2 + run isHexDigit rest⟩
      else none := by
  unfold hex?
  split
  next mark rest whole =>
    cases whole
    simp
  next unlike =>
    rw [if_neg]
    rintro ⟨⟨rfl, -⟩, -⟩
    exact unlike _ _ rfl

theorem hex_reach {first : Char}
    (within : ∀ lexeme ∈ hex? (first :: (text ++ back)), lexeme.length ≤ text.length + 1)
    (ends : Ends other) : hex? (first :: (text ++ other)) = hex? (first :: (text ++ back)) := by
  cases text with
  | nil =>
      have short : hex? (first :: ([] ++ back)) = none := by
        cases found : hex? (first :: ([] ++ back)) with
        | none => rfl
        | some lexeme =>
            have one := within lexeme found
            cases back with
            | nil => simp [hex?] at found
            | cons mark rest => grind [hex_cons]
      rw [short]
      cases other with
      | nil => simp [hex?]
      | cons char rest =>
          have small : char ≠ 'x' := ends.head_ne (by decide) (by decide)
          have large : char ≠ 'X' := ends.head_ne (by decide) (by decide)
          simp [hex_cons, small, large]
  | cons mark text =>
      simp only [List.cons_append, hex_cons, List.length_cons] at within ⊢
      by_cases marked : first = '0' ∧ (mark = 'x' ∨ mark = 'X')
      · have inside : run isHexDigit (text ++ back) ≤ text.length := by
          by_cases digitless : run isHexDigit (text ++ back) = 0
          · omega
          · have found := within _ (if_pos ⟨marked, digitless⟩)
            dsimp only at found
            omega
        rw [run_local hex_digit_solid inside ends]
      · rw [if_neg (marked ·.1), if_neg (marked ·.1)]

theorem string_rest_kept {chars : List Char} {length : Nat}
    (found : stringRest? chars = some length) (behind : List Char) :
    stringRest? (chars.take length ++ behind) = some length := by
  fun_induction stringRest? chars generalizing length with
  | case1 rest =>
      cases found
      rfl
  | case2 escaped rest induction =>
      obtain ⟨shorter, inside, rfl⟩ := Option.map_eq_some_iff.mp found
      simp [stringRest?, induction inside]
  | case4 char rest _ escape alone induction =>
      obtain ⟨shorter, inside, rfl⟩ := Option.map_eq_some_iff.mp found
      have unescaped : char ≠ '\\' := by
        rintro rfl
        cases rest with
        | nil => exact alone rfl rfl
        | cons next rest => exact escape next rest rfl rfl
      simp [stringRest?, unescaped, induction inside]
  | case3 | case5 => cases found

theorem string_reach {length : Nat} (found : stringRest? (text ++ back) = some length)
    (within : length ≤ text.length) (other : List Char) :
    stringRest? (text ++ other) = some length := by
  have kept := string_rest_kept found (text.drop length ++ other)
  rwa [List.take_append_of_le_length within, ← List.append_assoc, List.take_append_drop] at kept

theorem Ends.pair_none {second : Char} {rest : List Char} (ends : Ends (second :: rest))
    (first : Char) : pairKind? first second = none := by
  unfold pairKind?
  split <;> first | rfl | exact absurd (ends _ rfl) (by decide)

/-- A mark sees the one character behind it. -/
theorem mark_reach {first : Char} (within : (mark first (text ++ back)).length ≤ text.length + 1)
    (ends : Ends other) : mark first (text ++ other) = mark first (text ++ back) := by
  cases text with
  | cons second text => rfl
  | nil =>
      have alone : mark first ([] ++ back) = mark first [] := by
        cases back with
        | nil => rfl
        | cons second rest =>
            cases pair : pairKind? first second with
            | none => simp [mark, pair]
            | some kind => simp [mark, pair] at within
      rw [alone]
      cases other with
      | nil => rfl
      | cons second rest => simp [mark, ends.pair_none]

theorem comment_none_iff (rest : List Char) :
    comment? rest = none ↔ rest.head? ≠ some '/' ∧ rest.head? ≠ some '*' := by
  unfold comment?
  split
  · simp
  · split <;> simp
  next slash star =>
    cases rest with
    | nil => simp
    | cons char rest =>
        have solid : char ≠ '/' := fun same => slash rest (by rw [same])
        have dull : char ≠ '*' := fun same => star rest (by rw [same])
        simp [solid, dull]

theorem comment_no_token {rest : List Char} {lexeme : Lexeme} (found : comment? rest = some lexeme)
    (kind : TokenKind) : lexeme.class_ ≠ .token kind := by
  unfold comment? at found
  split at found
  · cases found
    nofun
  · split at found <;> cases found <;> nofun
  · cases found

/-- A slash in front of a text that ends a piece starts a comment only with another one. -/
theorem comment_reach (free : comment? (text ++ back) = none) (ends : Ends other)
    (apart : text = [] → other.head? ≠ some '/') : comment? (text ++ other) = none := by
  rw [comment_none_iff] at free ⊢
  cases text with
  | cons char text => exact free
  | nil =>
      refine ⟨apart rfl, ?_⟩
      intro star
      exact absurd (ends '*' star) (by decide)

theorem slash_reach {first : Char} {kind : TokenKind} {length : Nat}
    (read : (comment? (text ++ back)).getD (mark first (text ++ back)) = ⟨.token kind, length⟩)
    (within : length ≤ text.length + 1) (ends : Ends other)
    (apart : text = [] → other.head? ≠ some '/') :
    (comment? (text ++ other)).getD (mark first (text ++ other)) = ⟨.token kind, length⟩ := by
  have free : comment? (text ++ back) = none := by
    cases found : comment? (text ++ back) with
    | none => rfl
    | some lexeme =>
        rw [found, Option.getD_some] at read
        exact absurd (congrArg Lexeme.class_ read) (comment_no_token found kind)
  rw [free, Option.getD_none] at read
  rw [comment_reach free ends apart, Option.getD_none, mark_reach (by rwa [read]) ends, read]

theorem digit_reach {first : Char} {lexeme : Lexeme}
    (read : (hex? (first :: (text ++ back))).getD (number (first :: (text ++ back))) = lexeme)
    (within : lexeme.length ≤ text.length + 1) (ends : Ends other) :
    (hex? (first :: (text ++ other))).getD (number (first :: (text ++ other))) = lexeme := by
  have same : hex? (first :: (text ++ other)) = hex? (first :: (text ++ back)) := by
    refine hex_reach (fun hex found => ?_) ends
    rw [found, Option.getD_some] at read
    rwa [read]
  rw [same]
  cases found : hex? (first :: (text ++ back)) with
  | some hex => rwa [found] at read
  | none =>
      rw [found, Option.getD_none, ← List.cons_append] at read
      rw [Option.getD_none, ← List.cons_append, number_reach (by rwa [read]) ends, read]

theorem word_reach {first : Char} {length : Nat} (other : List Char)
    (inside : length ≤ text.length) :
    (first :: (text ++ other)).take (1 + length) = (first :: (text ++ back)).take (1 + length) := by
  rw [Nat.add_comm, List.take_succ_cons, List.take_succ_cons, List.take_append_of_le_length inside,
    List.take_append_of_le_length inside]

/-- A token is read the same in front of every text that ends it, but for a slash that another one
stands behind. -/
theorem front_reach {first : Char} {kind : TokenKind} {length : Nat}
    (read : front first (text ++ back) = ⟨.token kind, length⟩) (within : length ≤ text.length + 1)
    (ends : Ends other) (apart : first = '/' → text = [] → other.head? ≠ some '/') :
    front first (text ++ other) = ⟨.token kind, length⟩ := by
  unfold front at read ⊢
  split at read
  · cases read
  rw [if_neg ‹_›]
  split at read
  next slash =>
    rw [if_pos slash]
    exact slash_reach read within ends (apart (beq_iff_eq.mp slash))
  rw [if_neg ‹_›]
  split at read
  next digit =>
    rw [if_pos digit]
    exact digit_reach read within ends
  rw [if_neg ‹_›]
  have digits (point : (first == '.') = true) : run Char.isDigit (text ++ back) ≤ text.length := by
    by_cases digitless : run Char.isDigit (text ++ back) = 0
    · omega
    · have mantissa := mantissa_within_float (first :: (text ++ back))
        (1 + run Char.isDigit (text ++ back))
      have pointed : (first == '.' && run Char.isDigit (text ++ back) != 0) = true := by
        simp [point, digitless]
      rw [if_pos pointed] at read
      rw [read] at mantissa
      dsimp only at mantissa
      omega
  split at read
  next pointed =>
    have inside := digits (Bool.and_eq_true_iff.mp pointed).1
    rw [run_local digit_solid inside ends, if_pos pointed, ← List.cons_append]
    rw [← List.cons_append] at read
    rw [float_reach (by rwa [read]) ends, read]
  next pointless =>
    have also : ¬ (first == '.' && run Char.isDigit (text ++ other) != 0) = true := by
      intro pointed
      have inside := digits (Bool.and_eq_true_iff.mp pointed).1
      rw [run_local digit_solid inside ends] at pointed
      exact pointless pointed
    rw [if_neg also]
    split at read
    next quote =>
      rw [if_pos quote]
      cases closing : stringRest? (text ++ back) with
      | none => simp [closing] at read
      | some shorter =>
          simp only [closing, Lexeme.mk.injEq] at read
          have inside : shorter ≤ text.length := by omega
          simp only [string_reach closing inside other, Lexeme.mk.injEq]
          exact read
    rw [if_neg ‹_›]
    split at read
    next letter =>
      rw [if_pos letter]
      have inside : run isNameChar (text ++ back) ≤ text.length := by
        have same := congrArg Lexeme.length read
        dsimp only at same
        omega
      rw [run_local name_solid inside ends]
      dsimp only at read ⊢
      rwa [word_reach other inside]
    rw [if_neg ‹_›, mark_reach (by rwa [read]) ends, read]

/-! ### Nothing is read behind the end -/

theorem run_le (passes : Char → Bool) (chars : List Char) : run passes chars ≤ chars.length :=
  (List.takeWhile_prefix passes).length_le

theorem exponent_le (chars : List Char) : exponentLength chars ≤ chars.length := by
  cases chars with
  | nil => simp [exponentLength]
  | cons mark rest =>
      have plain := run_le Char.isDigit rest
      cases rest with
      | nil => simp [exponentLength]
      | cons sign digits =>
          have signed := run_le Char.isDigit digits
          simp only [exponentLength, List.length_cons] at plain ⊢
          grind

theorem suffix_le (chars : List Char) : suffixLength chars ≤ chars.length := by
  cases chars with
  | nil => simp [suffixLength]
  | cons char rest =>
      rw [suffix_cons, List.length_cons]
      split <;> omega

theorem float_le {chars : List Char} {mantissa : Nat} (inside : mantissa ≤ chars.length) :
    (floatOf chars mantissa).length ≤ chars.length := by
  have exponent := exponent_le (chars.drop mantissa)
  have suffix := suffix_le (chars.drop (mantissa + exponentLength (chars.drop mantissa)))
  rw [List.length_drop] at exponent suffix
  simp only [floatOf]
  omega

theorem number_le (chars : List Char) : (number chars).length ≤ chars.length := by
  have digits := run_le Char.isDigit chars
  rw [number_eq]
  split
  next point =>
    obtain ⟨rest, behind⟩ := List.head?_eq_some_iff.mp point
    have fraction := run_le Char.isDigit (chars.drop (run Char.isDigit chars + 1))
    have more := congrArg List.length behind
    rw [List.length_drop] at fraction more
    rw [List.length_cons] at more
    exact float_le (by omega)
  split
  · exact digits
  · exact float_le digits

theorem hex_le {chars : List Char} {lexeme : Lexeme} (found : hex? chars = some lexeme) :
    lexeme.length ≤ chars.length := by
  unfold hex? at found
  split at found
  next rest =>
    split at found
    · cases found
      have digits := run_le isHexDigit rest
      simp only [List.length_cons]
      omega
    · cases found
  next => cases found

theorem string_rest_le {chars : List Char} {length : Nat} (found : stringRest? chars = some length) :
    length ≤ chars.length := by
  fun_induction stringRest? chars generalizing length with
  | case1 rest =>
      cases found
      simp
  | case2 escaped rest induction | case4 char rest _ _ _ induction =>
      obtain ⟨shorter, inside, rfl⟩ := Option.map_eq_some_iff.mp found
      simpa using induction inside
  | case3 | case5 => cases found

theorem mark_le (first : Char) (rest : List Char) : (mark first rest).length ≤ rest.length + 1 := by
  rcases mark_cases first rest with ⟨_, _, _, rfl, -, same⟩ | ⟨_, -, same⟩ | same <;>
    simp [same]

theorem comment_rest_le {chars : List Char} {length : Nat}
    (found : commentRest? chars = some length) : length ≤ chars.length := by
  fun_induction commentRest? chars generalizing length with
  | case1 rest =>
      cases found
      simp
  | case2 char rest _ induction =>
      obtain ⟨shorter, inside, rfl⟩ := Option.map_eq_some_iff.mp found
      simpa using induction inside
  | case3 => cases found

theorem comment_le {rest : List Char} {lexeme : Lexeme} (found : comment? rest = some lexeme) :
    lexeme.length ≤ rest.length + 1 := by
  unfold comment? at found
  split at found
  next rest =>
    cases found
    have line := run_le (· != '\n') rest
    simp only [List.length_cons]
    omega
  next rest =>
    split at found
    next closed =>
      cases found
      have block := comment_rest_le closed
      simp only [List.length_cons]
      omega
    next =>
      cases found
      simp only [List.length_cons]
      omega
  next => cases found

theorem front_within (first : Char) (rest : List Char) :
    (front first rest).length ≤ rest.length + 1 := by
  have runs (passes : Char → Bool) : 1 + run passes rest ≤ rest.length + 1 := by
    have inside := run_le passes rest
    omega
  unfold front
  split
  · exact runs _
  split
  · cases found : comment? rest with
    | none => exact mark_le first rest
    | some lexeme => exact comment_le found
  split
  · cases found : hex? (first :: rest) with
    | none => exact number_le (first :: rest)
    | some lexeme => exact hex_le found
  split
  · exact float_le (runs _)
  split
  · split
    next closed =>
      have inside := string_rest_le closed
      dsimp only
      omega
    next => exact Nat.le_of_eq (Nat.add_comm _ _)
  split
  · exact runs _
  · exact mark_le first rest

end Lsl.Lexeme
