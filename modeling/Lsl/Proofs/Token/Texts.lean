import Lsl.Proofs.Token.Tiling

/-!
What the texts of tokens look like. A string stands between its quotes; every other token has neither
a space nor an apostrophe in it, and it is an assignment exactly if it is written as one.
-/

set_option autoImplicit false

namespace Lsl

/-- The texts of the assignments. -/
def assignmentTexts : List (List Char) :=
  [['='], ['+', '='], ['-', '='], ['*', '='], ['/', '='], ['%', '=']]

/-- A text as tokens of the kind have it. -/
structure TokenKind.Writes (kind : TokenKind) (text : List Char) : Prop where
  quoted : kind = .string → ∃ inner, text = '"' :: (inner ++ ['"'])
  plain : kind ≠ .string → ' ' ∉ text ∧ '\'' ∉ text
  assigns : kind.isAssignment = true → text ∈ assignmentTexts
  assigned : kind ≠ .string → text ∈ assignmentTexts → kind.isAssignment = true

/-- Characters of words and numbers. -/
def isWordChar (char : Char) : Bool :=
  Lexeme.isNameChar char || char == '.' || char == '+' || char == '-'

theorem TokenKind.writes_word {kind : TokenKind} {text : List Char} (other : kind ≠ .string)
    (plain : kind.isAssignment = false) (word : ∀ char ∈ text, isWordChar char = true) :
    kind.Writes text where
  quoted same := absurd same other
  plain _ := ⟨fun member => absurd (word _ member) (by decide),
    fun member => absurd (word _ member) (by decide)⟩
  assigns assigns := by simp [plain] at assigns
  assigned _ written := by
    have ends : ∀ sign ∈ assignmentTexts, '=' ∈ sign := by decide
    exact absurd (word _ (ends text written)) (by decide)

namespace Lexeme

/-- A token has a text of its kind, and no error that is found in its place is one of the grammar. -/
def Suits (lexeme : Lexeme) (chars : List Char) : Prop :=
  match lexeme.class_ with
  | .blank => True
  | .token kind => kind.Writes (chars.take lexeme.length)
  | .fault kind => kind ≠ .grammar

theorem pair_writes {first second : Char} {kind : TokenKind}
    (found : pairKind? first second = some kind) : kind.Writes [first, second] := by
  unfold pairKind? at found
  split at found <;> cases found <;> exact ⟨nofun, by decide, by decide, by decide⟩

theorem single_writes {first : Char} {kind : TokenKind} (found : singleKind? first = some kind) :
    kind.Writes [first] := by
  unfold singleKind? at found
  split at found <;> cases found <;> exact ⟨nofun, by decide, by decide, by decide⟩

theorem mark_suits (first : Char) (rest : List Char) : (mark first rest).Suits (first :: rest) := by
  rcases mark_cases first rest with ⟨_, _, kind, rfl, found, same⟩ | ⟨kind, found, same⟩ | same <;>
    rw [same]
  · exact pair_writes found
  · exact single_writes found
  · have lexical : SyntaxErrorKind.unrecognisedToken ≠ .grammar := by decide
    exact lexical

theorem run_word {passes : Char → Bool} (words : ∀ char, passes char = true → isWordChar char = true)
    (chars : List Char) : ∀ char ∈ chars.take (run passes chars), isWordChar char = true := by
  rw [take_run]
  exact fun char member => words char (List.mem_takeWhile_imp member)

theorem digit_word (char : Char) (digit : char.isDigit = true) : isWordChar char = true := by
  simp [isWordChar, isNameChar, Char.isAlphanum, digit]

theorem exponent_word (chars : List Char) :
    ∀ char ∈ chars.take (exponentLength chars), isWordChar char = true := by
  have digits := run_word digit_word
  cases chars with
  | nil => simp [exponentLength]
  | cons mark rest =>
      have nothing : ∀ char ∈ (mark :: rest).take 0, isWordChar char = true := by simp
      simp only [exponentLength]
      split
      · rename_i letter
        have marked : isWordChar mark = true := by
          rw [Bool.or_eq_true, beq_iff_eq, beq_iff_eq] at letter
          rcases letter with rfl | rfl <;> decide
        cases rest with
        | nil => exact nothing
        | cons sign tail =>
            dsimp only
            split
            · rename_i signed
              have plain : isWordChar sign = true := by
                rw [Bool.or_eq_true, beq_iff_eq, beq_iff_eq] at signed
                rcases signed with rfl | rfl <;> decide
              split
              · exact nothing
              · rw [Nat.add_comm, List.take_succ_cons, List.take_succ_cons]
                simpa [marked, plain] using digits tail
            · split
              · exact nothing
              · rw [Nat.add_comm, List.take_succ_cons]
                simpa [marked] using digits (sign :: tail)
      · exact nothing

theorem suffix_word (chars : List Char) :
    ∀ char ∈ chars.take (suffixLength chars), isWordChar char = true := by
  unfold suffixLength
  split <;> simp [isWordChar, isNameChar]

theorem float_suits {chars : List Char} {mantissa : Nat}
    (word : ∀ char ∈ chars.take mantissa, isWordChar char = true) :
    (floatOf chars mantissa).Suits chars := by
  refine TokenKind.writes_word (by decide) rfl fun char member => ?_
  simp only [floatOf, List.take_add, List.mem_append] at member
  rcases member with (inside | inside) | inside
  · exact word char inside
  · exact exponent_word _ char inside
  · exact suffix_word _ char inside

theorem number_suits (chars : List Char) : (number chars).Suits chars := by
  have digits := run_word digit_word
  unfold number
  dsimp only
  split
  · rename_i rest behind
    refine float_suits fun char member => ?_
    simp only [List.take_add, List.mem_append] at member
    rcases member with (inside | point) | inside
    · exact digits chars char inside
    · rw [behind, List.take_succ_cons, List.take_zero, List.mem_singleton] at point
      exact point ▸ by decide
    · rw [← List.drop_drop, behind, List.drop_succ_cons, List.drop_zero] at inside
      exact digits rest char inside
  · split
    · exact TokenKind.writes_word (by decide) rfl (digits chars)
    · exact float_suits (digits chars)

theorem hex_digit_name (char : Char) (digit : isHexDigit char = true) : isNameChar char = true := by
  have word (alphanumeric : (char.isUpper || char.isLower || char.isDigit) = true) :
      isNameChar char = true := by
    have inside : char.isAlphanum = true := alphanumeric
    simp [isNameChar, inside]
  simp only [isHexDigit, Bool.or_eq_true, Bool.and_eq_true, decide_eq_true_eq, Char.le_def] at digit
  apply word
  rcases digit with (digit | ⟨low, high⟩) | ⟨low, high⟩
  · simp [digit]
  · have lower : char.isLower = true := Bool.and_eq_true_iff.mpr
      ⟨decide_eq_true low, decide_eq_true (UInt32.le_trans high (by decide))⟩
    simp [lower]
  · have upper : char.isUpper = true :=
      decide_eq_true ⟨low, UInt32.le_trans high (by decide)⟩
    simp [upper]

theorem hex_digit_word (char : Char) (digit : isHexDigit char = true) : isWordChar char = true := by
  simp [isWordChar, hex_digit_name char digit]

theorem hex_suits {chars : List Char} {lexeme : Lexeme} (found : hex? chars = some lexeme) :
    lexeme.Suits chars := by
  unfold hex? at found
  split at found
  · rename_i mark rest
    split at found
    · rename_i marked
      cases found
      rw [Bool.and_eq_true, Bool.or_eq_true, beq_iff_eq, beq_iff_eq] at marked
      have letter : isWordChar mark = true := by
        rcases marked.1 with rfl | rfl <;> decide
      refine TokenKind.writes_word (by decide) rfl ?_
      rw [Nat.add_comm, List.take_succ_cons, List.take_succ_cons]
      simpa [letter, digit_word] using run_word hex_digit_word rest
    · cases found
  · cases found

theorem comment_suits {rest chars : List Char} {lexeme : Lexeme}
    (found : comment? rest = some lexeme) : lexeme.Suits chars := by
  unfold comment? at found
  split at found
  · cases found
    trivial
  · split at found <;> cases found
    · trivial
    · exact nofun
  · cases found

theorem word_kind_plain (word : String) :
    wordKind word ≠ .string ∧ (wordKind word).isAssignment = false := by
  unfold wordKind
  split <;> decide

theorem string_closed {chars : List Char} {length : Nat} (found : stringRest? chars = some length) :
    ∃ inner, chars.take length = inner ++ ['"'] := by
  fun_induction stringRest? chars generalizing length with
  | case1 rest =>
      cases found
      exact ⟨[], by simp⟩
  | case2 escaped rest induction =>
      obtain ⟨shorter, inside, rfl⟩ := Option.map_eq_some_iff.mp found
      obtain ⟨inner, closed⟩ := induction inside
      exact ⟨'\\' :: escaped :: inner, by simp [closed]⟩
  | case4 char rest _ _ _ induction =>
      obtain ⟨shorter, inside, rfl⟩ := Option.map_eq_some_iff.mp found
      obtain ⟨inner, closed⟩ := induction inside
      exact ⟨char :: inner, by simp [closed]⟩
  | case3 | case5 => cases found

theorem front_suits (first : Char) (rest : List Char) :
    (front first rest).Suits (first :: rest) := by
  unfold front
  split
  · trivial
  split
  · cases comment : comment? rest with
    | none => exact mark_suits first rest
    | some lexeme => exact comment_suits comment
  split
  · cases hex : hex? (first :: rest) with
    | none => exact number_suits _
    | some lexeme => exact hex_suits hex
  split
  · rename_i point
    rw [Bool.and_eq_true, beq_iff_eq] at point
    refine float_suits ?_
    rw [Nat.add_comm, List.take_succ_cons, point.1]
    simpa [isWordChar] using run_word digit_word rest
  split
  · rename_i quote
    rw [beq_iff_eq] at quote
    split
    · rename_i length closing
      obtain ⟨inner, closed⟩ := string_closed closing
      refine ⟨fun _ => ⟨inner, ?_⟩, fun other => absurd rfl other, nofun,
        fun other => absurd rfl other⟩
      rw [Nat.add_comm, List.take_succ_cons, quote, closed]
    · exact nofun
  split
  · rename_i begins
    have name : ∀ char ∈ (first :: rest).take (1 + run isNameChar rest), isWordChar char = true := by
      have starts : isNameChar first = true := by
        simp only [isNameStart, isNameChar, Char.isAlphanum, Bool.or_eq_true] at begins ⊢
        exact begins.imp .inl id
      have words := run_word (fun char (name : isNameChar char = true) => by
        simp [isWordChar, name]) rest
      rw [Nat.add_comm, List.take_succ_cons]
      simpa [isWordChar, starts] using words
    obtain ⟨other, plain⟩ :=
      word_kind_plain (String.ofList ((first :: rest).take (1 + run isNameChar rest)))
    exact TokenKind.writes_word other plain name
  · exact mark_suits first rest

end Lexeme

theorem SyntaxError.lexical_kind (kind : SyntaxErrorKind) (text : String) (span : Span) :
    (lexical kind text span).kind = kind := by
  unfold lexical
  split <;> rfl

/-- Each piece of a scan is what the lexeme at its place adds. -/
theorem scan_from_front (place : Position) (pending : Nat) (chars : List Char) :
    ∀ piece ∈ scanFrom place pending chars, ∃ first rest start, piece ∈
      (Lexeme.front first rest).scanned ((first :: rest).take (Lexeme.front first rest).length)
        start := by
  induction chars generalizing place pending with
  | nil => simp [scanFrom]
  | cons char rest induction =>
      cases pending with
      | succ pending => exact induction _ _
      | zero =>
          intro piece member
          rw [scanFrom] at member
          rcases List.mem_append.mp member with own | later
          · exact ⟨char, rest, place, own⟩
          · exact induction _ _ piece later

/-- A token has a text of its kind, and no error is one of the grammar. -/
def Scanned.Suits : Scanned → Prop
  | token found => found.kind.Writes found.text.toList
  | fault error => error.kind ≠ .grammar

theorem scan_from_suits (place : Position) (pending : Nat) (chars : List Char) :
    ∀ piece ∈ scanFrom place pending chars, piece.Suits := by
  intro piece member
  obtain ⟨first, rest, start, own⟩ := scan_from_front place pending chars piece member
  have suits := Lexeme.front_suits first rest
  unfold Lexeme.Suits at suits
  unfold Lexeme.scanned at own
  dsimp only at own
  split at own
  · simp at own
  · rename_i kind class_
    rw [class_] at suits
    obtain rfl := List.mem_singleton.mp own
    simpa [Scanned.Suits] using suits
  · rename_i kind class_
    rw [class_] at suits
    obtain rfl := List.mem_singleton.mp own
    rwa [Scanned.Suits, SyntaxError.lexical_kind]

/-- The tokens of a source have texts of their kinds, but for the one that closes it. -/
theorem tokenize_writes {source : String} {token : Token} (member : token ∈ tokenize source)
    (open_ : token.kind ≠ .endOfFile) : token.kind.Writes token.text.toList := by
  rcases List.mem_append.mp member with scanned | closing
  · obtain ⟨piece, inside, found⟩ := List.mem_filterMap.mp scanned
    have suits := scan_from_suits _ _ _ piece inside
    cases piece with
    | token own =>
        obtain rfl := Option.some.inj found
        exact suits
    | fault error => cases found
  · obtain rfl := List.mem_singleton.mp closing
    exact absurd rfl open_

theorem lexical_errors_kind {source : String} {error : SyntaxError}
    (member : error ∈ lexicalErrors source) : error.kind ≠ .grammar := by
  obtain ⟨piece, inside, found⟩ := List.mem_filterMap.mp member
  have suits := scan_from_suits _ _ _ piece inside
  cases piece with
  | token own => cases found
  | fault own =>
      obtain rfl := Option.some.inj found
      exact suits

end Lsl
