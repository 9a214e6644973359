import Lsl.Generation.Expression
import Lsl.Proofs.Token.Spacing
import Lsl.Target.Text

/-!
Texts as literals of generated code. What is written for a text is read as that text, up to its last
character and no further, by generated code as well as by the scan of a script. A script gives the
text back unless it has a tab, a carriage return or a NUL in it.
-/

set_option autoImplicit false

namespace Lsl

namespace Target

/-- What a backslash and a character stand for in generated code. -/
def escaped? : Char → Option Char
  | '\\' => some '\\'
  | '"' => some '"'
  | 'n' => some '\n'
  | 'r' => some '\r'
  | 't' => some '\t'
  | '0' => some '\x00'
  | _ => none

/-- The text up to the closing quote of a literal, and what follows that quote. -/
def literalRest? : List Char → Option (List Char × List Char)
  | '"' :: behind => some ([], behind)
  | '\\' :: mark :: rest =>
    match escaped? mark with
    | some meant => (literalRest? rest).map fun (text, behind) => (meant :: text, behind)
    | none => none
  | ['\\'] => none
  | char :: rest => (literalRest? rest).map fun (text, behind) => (char :: text, behind)
  | [] => none

/-- The text of the literal that the characters begin with, and what follows it. -/
def literal? : List Char → Option (List Char × List Char)
  | '"' :: rest => literalRest? rest
  | _ => none

theorem literal_rest_plain {char : Char} (quote : char ≠ '"') (backslash : char ≠ '\\')
    (rest : List Char) : literalRest? (char :: rest) =
      (literalRest? rest).map fun (text, behind) => (char :: text, behind) := by
  rw [literalRest?]
  · exact quote
  · exact fun _ _ same => absurd same backslash
  · exact fun same => absurd same backslash

theorem literal_rest_append {front text behind : List Char}
    (found : literalRest? front = some (text, behind)) (more : List Char) :
    literalRest? (front ++ more) = some (text, behind ++ more) := by
  fun_induction literalRest? front generalizing text with
  | case1 rest =>
      cases found
      rfl
  | case2 mark rest meant known induction =>
      obtain ⟨⟨inner, last⟩, inside, same⟩ := Option.map_eq_some_iff.mp found
      cases same
      simp [literalRest?, known, induction inside]
  | case5 char rest quote escape alone induction =>
      obtain ⟨⟨inner, last⟩, inside, same⟩ := Option.map_eq_some_iff.mp found
      cases same
      have backslash : char ≠ '\\' := by
        rintro rfl
        cases rest with
        | nil => exact alone rfl rfl
        | cons next rest => exact escape next rest rfl rfl
      rw [List.cons_append, literal_rest_plain quote backslash, induction inside]
      rfl
  | case3 | case4 | case6 => cases found

theorem literal_open {chars text front : List Char} (whole : literal? chars = some (text, []))
    (before : front <+: chars) (shorter : front ≠ chars) : literal? front = none := by
  obtain ⟨more, rfl⟩ := before
  cases found : literal? front with
  | none => rfl
  | some pair =>
      unfold literal? at found
      split at found
      · rw [List.cons_append, literal?, literal_rest_append found, Option.some.injEq,
          Prod.mk.injEq, List.append_eq_nil_iff] at whole
        exact absurd (by simp [whole.2.2]) shorter
      · cases found

end Target

namespace Literal

/-- Characters that no literal has in it as they are. -/
def controls : List Char := ['\n', '\r', '\t', '\x00']

theorem encode_char_cases (char : Char) :
    (∃ mark, encodeChar char = ['\\', mark] ∧ Target.escaped? mark = some char ∧
      mark ∉ controls) ∨
    (encodeChar char = [char] ∧ char ≠ '"' ∧ char ≠ '\\' ∧ char ∉ controls) := by
  have nul : char.toNat = 0 ↔ char = '\x00' := by
    rw [← Char.toNat_inj]
    rfl
  unfold encodeChar
  repeat' split
  · exact .inl ⟨'\\', rfl, by simp [*, Target.escaped?], by decide⟩
  · exact .inl ⟨'"', rfl, by simp [*, Target.escaped?], by decide⟩
  · exact .inl ⟨'n', rfl, by simp [*, Target.escaped?], by decide⟩
  · exact .inl ⟨'r', rfl, by simp [*, Target.escaped?], by decide⟩
  · exact .inl ⟨'t', rfl, by simp [*, Target.escaped?], by decide⟩
  · exact .inl ⟨'0', rfl, by simp_all [Target.escaped?], by decide⟩
  · refine .inr ⟨rfl, ‹_›, ‹_›, ?_⟩
    simp_all [controls]

theorem encode_char_plain (char : Char) : ∀ written ∈ encodeChar char, written ∉ controls := by
  rcases encode_char_cases char with ⟨mark, same, -, plain⟩ | ⟨same, -, -, plain⟩
  · have backslash : '\\' ∉ controls := by decide
    simpa [same] using ⟨backslash, plain⟩
  · simpa [same] using plain

theorem literal_rest_char (char : Char) (rest : List Char) :
    Target.literalRest? (encodeChar char ++ rest) =
      (Target.literalRest? rest).map fun (text, behind) => (char :: text, behind) := by
  rcases encode_char_cases char with ⟨mark, same, meant, -⟩ | ⟨same, quote, backslash, -⟩
  · simp [same, Target.literalRest?, meant]
  · rw [same]
    exact Target.literal_rest_plain quote backslash rest

theorem literal_rest_encoded (text behind : List Char) :
    Target.literalRest? (text.flatMap encodeChar ++ '"' :: behind) = some (text, behind) := by
  induction text with
  | nil => rfl
  | cons char text induction =>
      rw [List.flatMap_cons, List.append_assoc, literal_rest_char, induction]
      rfl

theorem string_rest_char (char : Char) (rest : List Char) :
    Lexeme.stringRest? (encodeChar char ++ rest) =
      (Lexeme.stringRest? rest).map (· + (encodeChar char).length) := by
  rcases encode_char_cases char with ⟨mark, same, -, -⟩ | ⟨same, quote, backslash, -⟩
  · rw [same]
    rfl
  · rw [same, List.singleton_append, Lexeme.stringRest?]
    · rfl
    · exact quote
    · exact fun _ _ same => absurd same backslash
    · exact fun same => absurd same backslash

theorem string_rest_encoded (text behind : List Char) :
    Lexeme.stringRest? (text.flatMap encodeChar ++ '"' :: behind) =
      some ((text.flatMap encodeChar).length + 1) := by
  induction text with
  | nil => rfl
  | cons char text induction =>
      rw [List.flatMap_cons, List.append_assoc, string_rest_char, induction, Option.map_some,
        List.length_append]
      congr 1
      omega

/-- What a script reads for a character in a literal that was written for generated code. -/
def reread (char : Char) : List Char :=
  if char = '\t' then [' ', ' ', ' ', ' ']
  else if char = '\r' then ['r']
  else if char = '\x00' then ['0']
  else [char]

/-- A character that scripts and generated code read alike in a literal. -/
def isShared (char : Char) : Prop := char ≠ '\t' ∧ char ≠ '\r' ∧ char ≠ '\x00'

theorem decode_chars_char (char : Char) (rest : List Char) :
    decodeChars (encodeChar char ++ rest) = reread char ++ decodeChars rest := by
  rcases encode_char_cases char with ⟨mark, same, meant, -⟩ | ⟨same, -, backslash, plain⟩
  · rw [same]
    unfold Target.escaped? at meant
    split at meant <;> cases meant <;> rfl
  · simp only [controls, List.mem_cons, List.not_mem_nil, or_false, not_or] at plain
    rw [same, List.singleton_append, decodeChars]
    · simp [reread, plain]
    all_goals simp [backslash]

theorem decode_chars_encoded (text : List Char) :
    decodeChars (text.flatMap encodeChar) = text.flatMap reread := by
  induction text with
  | nil => rfl
  | cons char text induction =>
      rw [List.flatMap_cons, decode_chars_char, induction]
      rfl

theorem unquoted_quoted (inner : List Char) : unquoted ('"' :: (inner ++ ['"'])) = inner := by
  simp [unquoted]

theorem encode_string_chars (value : String) :
    (encodeString value).toList = '"' :: (value.toList.flatMap encodeChar ++ ['"']) := by
  simp [encodeString]

theorem decode_string_encoded (value : String) :
    (decodeString (encodeString value)).toList = value.toList.flatMap reread := by
  rw [decodeString, encode_string_chars, unquoted_quoted, decode_chars_encoded,
    String.toList_ofList]

theorem reread_shared (char : Char) : ∀ read ∈ reread char, isShared read := by
  unfold reread
  repeat' split
  · simp [isShared]
  · simp [isShared]
  · simp [isShared]
  · simpa using ⟨‹_›, ‹_›, ‹_›⟩

theorem flat_map_reread_iff (text : List Char) :
    text.flatMap reread = text ↔ ∀ char ∈ text, isShared char := by
  constructor
  · intro same char member
    rw [← same] at member
    obtain ⟨source, _, read⟩ := List.mem_flatMap.mp member
    exact reread_shared source char read
  · intro shared
    have alone : ∀ char ∈ text, reread char = [char] := by
      intro char member
      obtain ⟨tab, back, zero⟩ := shared char member
      simp [reread, tab, back, zero]
    rw [List.flatMap_congr alone, List.flatMap_singleton']

theorem front_encoded (value : String) (behind : List Char) :
    Lexeme.front '"' (value.toList.flatMap encodeChar ++ ['"'] ++ behind) =
      ⟨.token .string, (value.toList.flatMap encodeChar ++ ['"']).length + 1⟩ := by
  have closed := string_rest_encoded value.toList behind
  rw [List.append_cons] at closed
  simp only [Lexeme.front]
  rw [if_neg (by decide), if_neg (by decide), if_neg (by decide), if_neg (by simp),
    if_pos (by decide), closed]
  simp [Nat.add_comm]

theorem scan_encoded (value : String) :
    scan (encodeString value) = [.token ⟨.string, encodeString value,
      ⟨.origin, Position.origin.advanceOver (encodeString value).toList⟩⟩] := by
  have piece := scan_from_text .origin (front_encoded value []) rfl
  rw [List.append_nil] at piece
  rw [scan, encode_string_chars, piece]
  simp [Lexeme.scanned, scanFrom, encodeString]

/-- What the literal that is written for a text keeps of it. It is read as the text whatever stands
behind it, and not in front of its last character. No line ends in it, and no tab and no NUL are in
it. A script has it as one token, and reads the text in it exactly if it reads each character so. -/
structure Kept (value : String) : Prop where
  read : ∀ behind,
    Target.literal? ((encodeString value).toList ++ behind) = some (value.toList, behind)
  unclosed : ∀ front, front <+: (encodeString value).toList →
    front ≠ (encodeString value).toList → Target.literal? front = none
  plain : ∀ char ∈ (encodeString value).toList, char ∉ controls
  scanned : ∃ stop, tokenize (encodeString value) =
    [⟨.string, encodeString value, ⟨.origin, stop⟩⟩, .closing stop]
  clean : lexicalErrors (encodeString value) = []
  reread : decodeString (encodeString value) = value ↔ ∀ char ∈ value.toList, isShared char

theorem kept (value : String) : Kept value where
  read behind := by
    rw [encode_string_chars, List.cons_append, List.append_assoc]
    exact literal_rest_encoded value.toList behind
  unclosed front before shorter := by
    have whole : Target.literal? (encodeString value).toList = some (value.toList, []) := by
      rw [encode_string_chars]
      exact literal_rest_encoded value.toList []
    exact Target.literal_open whole before shorter
  plain := by
    have quote : '"' ∉ controls := by decide
    have inner : ∀ char ∈ value.toList.flatMap encodeChar, char ∉ controls := by
      intro char member
      obtain ⟨source, _, written⟩ := List.mem_flatMap.mp member
      exact encode_char_plain source char written
    rw [encode_string_chars]
    simp only [List.mem_cons, List.mem_append, List.not_mem_nil, or_false]
    rintro char (rfl | inside | rfl)
    · exact quote
    · exact inner char inside
    · exact quote
  scanned := by
    refine ⟨Position.origin.advanceOver (encodeString value).toList, ?_⟩
    rw [tokenize, scan_encoded]
    rfl
  clean := by
    rw [lexicalErrors, scan_encoded]
    rfl
  reread := by
    rw [← String.toList_inj, decode_string_encoded]
    exact flat_map_reread_iff value.toList

end Literal

/-- Code for a text: its literal, alone or in a constructor, a conversion or parentheses. -/
inductive Code.Quotes (value : String) : Code → Prop
  | literal : Quotes value (.plain (Literal.encodeString value))
  | created {code : Code} (type : String) (inner : Quotes value code) :
    Quotes value (.create type "," [code])
  | converted {code : Code} (type : String) (inner : Quotes value code) :
    Quotes value (.convert type code)
  | grouped {code : Code} (inner : Quotes value code) : Quotes value (.grouped code)

theorem Code.Quotes.written {value : String} {code : Code} (quotes : code.Quotes value)
    (access : GlobalAccess) :
    ∃ front back, code.fragments access = front ++ .text (Literal.encodeString value) :: back := by
  induction quotes with
  | literal => exact ⟨[], [], rfl⟩
  | created type inner induction =>
      obtain ⟨front, back, same⟩ := induction
      exact ⟨.text ("new " ++ type ++ "(") :: front, back ++ [.text ")"],
        by simp [Code.fragments, Code.joined, same]⟩
  | converted type inner induction =>
      obtain ⟨front, back, same⟩ := induction
      exact ⟨.text ("(" ++ type ++ ")(") :: front, back ++ [.text ")"],
        by simp [Code.fragments, same]⟩
  | grouped inner induction =>
      obtain ⟨front, back, same⟩ := induction
      exact ⟨.text "(" :: front, back ++ [.text ")"], by simp [Code.fragments, same]⟩

theorem literal_code_quotes (place : Place) (raw : String) :
    (stringCode place raw).Quotes (Literal.decodeString raw) := by
  unfold stringCode literalCode
  split
  · exact .created _ .literal
  · exact .literal

theorem stored_code_quotes (manner : Manner) (target : ValueType) (info : ExprInfo) (raw : String)
    (place : Place) :
    (storedCode manner target (.string info raw) (stringCode place raw)).Quotes
      (Literal.decodeString raw) := by
  unfold storedCode
  split
  · exact literal_code_quotes place raw
  · exact .literal

theorem cast_code_quotes (manner : Manner) (target : ValueType) (info : ExprInfo) (raw : String)
    (place : Place) :
    (castCode manner target (.string info raw) (stringCode place raw)).Quotes
      (Literal.decodeString raw) := by
  unfold castCode
  dsimp only
  split
  · exact literal_code_quotes place raw
  split
  · exact .grouped (.created _ .literal)
  · exact .converted _ (literal_code_quotes place raw)

/-- Texts survive generation. The literal of a text is read as the text, ends with its last
character, and is one token where a script has it. A string literal of a script, whatever holds it,
is written as the literal of its value, in one piece, so that generated code reads the value and
goes on behind it. -/
theorem string_literals_kept :
    (∀ value, Literal.Kept value) ∧
    ∀ manner info raw place,
      let value := Literal.decodeString raw
      let code := (Expr.string info raw).code manner place
      (code.Quotes value ∧
        (∀ target, (storedCode manner target (.string info raw) code).Quotes value) ∧
        ∀ outer target,
          ((Expr.cast outer target (.string info raw)).code manner place).Quotes value) ∧
      ∀ code : Code, code.Quotes value → ∀ access, ∃ front back,
        code.fragments access = front ++ .text (Literal.encodeString value) :: back ∧
        ∀ behind, Target.literal? ((Literal.encodeString value).toList ++ behind) =
          some (value.toList, behind) := by
  refine ⟨Literal.kept, fun manner info raw place => ⟨⟨?_, ?_, ?_⟩, ?_⟩⟩
  · exact literal_code_quotes place raw
  · exact fun target => stored_code_quotes manner target info raw place
  · exact fun outer target => cast_code_quotes manner target info raw .elsewhere
  · intro code quotes access
    obtain ⟨front, back, written⟩ := quotes.written access
    exact ⟨front, back, written, (Literal.kept _).read⟩

end Lsl
