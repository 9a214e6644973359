import Lsl.Json.Text
import Lsl.Literal.Decimal
import Mathlib.Data.List.DropRight

/-!
Which documents stand for which values, after RFC 8259: blanks may stand around every value and every
mark, and a character of a string may be escaped by a mark, by its number or by two surrogates.
Numbers are left out. The reader reads every document as the value it stands for, and what is written
for a value is a document that stands for it. A string is read up to the quote that closes it, and a
value to its end, whatever stands behind it.
-/

set_option autoImplicit false

namespace Lsl.Json

/-- Text between values and marks. -/
def IsBlank (chars : List Char) : Prop := ∀ char ∈ chars, char ∈ [' ', '\t', '\n', '\r']

/-- The characters that are escaped by a mark, each behind its mark. -/
def escapeMarks : List (Char × Char) :=
  [('"', '"'), ('\\', '\\'), ('/', '/'), ('b', '\x08'), ('f', '\x0c'), ('n', '\n'), ('r', '\r'),
    ('t', '\t')]

/-- What is written between quotes, and the text it stands for. -/
inductive Spells : List Char → List Char → Prop
  | nil : Spells [] []
  | plain {char : Char} {written text : List Char} (quote : char ≠ '"') (slash : char ≠ '\\')
      (printed : 0x20 ≤ char.toNat) (rest : Spells written text) :
      Spells (char :: written) (char :: text)
  | marked {mark char : Char} {written text : List Char} (listed : (mark, char) ∈ escapeMarks)
      (rest : Spells written text) : Spells ('\\' :: mark :: written) (char :: text)
  | numbered {a b c d : Char} {code : Nat} {written text : List Char}
      (number : natural? 16 [a, b, c, d] = some code) (whole : code < 0xd800 ∨ 0xe000 ≤ code)
      (rest : Spells written text) :
      Spells ('\\' :: 'u' :: a :: b :: c :: d :: written) (Char.ofNat code :: text)
  | paired {a b c d e f g h : Char} {high low : Nat} {written text : List Char}
      (first : natural? 16 [a, b, c, d] = some high) (leads : 0xd800 ≤ high ∧ high < 0xdc00)
      (second : natural? 16 [e, f, g, h] = some low) (trails : 0xdc00 ≤ low ∧ low < 0xe000)
      (rest : Spells written text) :
      Spells ('\\' :: 'u' :: a :: b :: c :: d :: '\\' :: 'u' :: e :: f :: g :: h :: written)
        (Char.ofNat (0x10000 + (high - 0xd800) * 0x400 + (low - 0xdc00)) :: text)

/-- What a piece of a document stands for. -/
inductive Part where
  | value (value : Json)
  | items (items : List Json)
  | members (members : List (Option String × Json))

/-- Values, items up to the end of an array and members up to the end of an object, with the text
they are written as. Arrays and objects are nested no deeper than a certain number. -/
inductive Denotes : Nat → Part → List Char → Prop
  | null {depth : Nat} : Denotes depth (.value .null) ['n', 'u', 'l', 'l']
  | yes {depth : Nat} : Denotes depth (.value (.bool true)) ['t', 'r', 'u', 'e']
  | no {depth : Nat} : Denotes depth (.value (.bool false)) ['f', 'a', 'l', 's', 'e']
  | string {depth : Nat} {written text : List Char} (spells : Spells written text) :
      Denotes depth (.value (.string (some (String.ofList text)))) ('"' :: (written ++ ['"']))
  | emptyArray {depth : Nat} {blank : List Char} (isBlank : IsBlank blank) :
      Denotes (depth + 1) (.value (.array [])) ('[' :: (blank ++ [']']))
  | array {depth : Nat} {items : List Json} {text : List Char}
      (inside : Denotes depth (.items items) text) :
      Denotes (depth + 1) (.value (.array items)) ('[' :: (text ++ [']']))
  | emptyObject {depth : Nat} {blank : List Char} (isBlank : IsBlank blank) :
      Denotes (depth + 1) (.value (.object [])) ('\x7b' :: (blank ++ ['\x7d']))
  | object {depth : Nat} {members : List (Option String × Json)} {text : List Char}
      (inside : Denotes depth (.members members) text) :
      Denotes (depth + 1) (.value (.object members)) ('\x7b' :: (text ++ ['\x7d']))
  | lastItem {depth : Nat} {item : Json} {front text back : List Char} (before : IsBlank front)
      (own : Denotes depth (.value item) text) (behind : IsBlank back) :
      Denotes depth (.items [item]) (front ++ (text ++ back))
  | item {depth : Nat} {item : Json} {items : List Json} {front text back rest : List Char}
      (before : IsBlank front) (own : Denotes depth (.value item) text) (behind : IsBlank back)
      (others : Denotes depth (.items items) rest) :
      Denotes depth (.items (item :: items)) (front ++ (text ++ (back ++ ',' :: rest)))
  | lastMember {depth : Nat} {key : List Char} {value : Json}
      {front written middle between text back : List Char} (before : IsBlank front)
      (spells : Spells written key) (ahead : IsBlank middle) (apart : IsBlank between)
      (own : Denotes depth (.value value) text) (behind : IsBlank back) :
      Denotes depth (.members [(some (String.ofList key), value)])
        (front ++ '"' :: (written ++ '"' :: (middle ++ ':' :: (between ++ (text ++ back)))))
  | member {depth : Nat} {key : List Char} {value : Json} {members : List (Option String × Json)}
      {front written middle between text back rest : List Char} (before : IsBlank front)
      (spells : Spells written key) (ahead : IsBlank middle) (apart : IsBlank between)
      (own : Denotes depth (.value value) text) (behind : IsBlank back)
      (others : Denotes depth (.members members) rest) :
      Denotes depth (.members ((some (String.ofList key), value) :: members))
        (front ++ '"' :: (written ++ '"' :: (middle ++ ':' ::
          (between ++ (text ++ (back ++ ',' :: rest))))))

/-- The document has one value and nothing else in it. -/
def IsDocument (depth : Nat) (value : Json) (document : String) : Prop :=
  ∃ front text back, IsBlank front ∧ Denotes depth (.value value) text ∧ IsBlank back ∧
    document = String.ofList (front ++ (text ++ back))

/-- The values that documents stand for: without numbers, each string has a text, and arrays and
objects are nested no deeper than a certain number. -/
inductive Plain : Nat → Json → Prop
  | null {depth : Nat} : Plain depth .null
  | bool {depth : Nat} (value : Bool) : Plain depth (.bool value)
  | string {depth : Nat} (text : String) : Plain depth (.string (some text))
  | array {depth : Nat} {items : List Json} (each : ∀ item ∈ items, Plain depth item) :
      Plain (depth + 1) (.array items)
  | object {depth : Nat} {members : List (Option String × Json)}
      (keys : ∀ member ∈ members, member.1.isSome) (each : ∀ member ∈ members, Plain depth member.2) :
      Plain (depth + 1) (.object members)

/-! ### Strings -/

theorem hex_digits {a b c d : Char} {code : Nat} (number : natural? 16 [a, b, c, d] = some code) :
    [a, b, c, d].all isHexDigit = true := by
  have digits : ∀ (chars : List Char) (start value : Nat),
      naturalFrom 16 start chars = some value → chars.all isHexDigit = true := by
    intro chars
    induction chars with
    | nil => intros; rfl
    | cons char chars induction =>
        intro start value found
        unfold naturalFrom at found
        split at found
        · rename_i digit known
          simp [isHexDigit, known, induction _ _ found]
        · cases found
  exact digits _ 0 code number

theorem mark_known : ∀ pair ∈ escapeMarks,
    pair.1 ≠ 'u' ∧ isSimpleEscape pair.1 = true ∧ escaped? pair.1 = some pair.2 := by
  decide

theorem string_body_mark {mark : Char} (rest : List Char) (other : mark ≠ 'u')
    (simple : isSimpleEscape mark = true) :
    stringBody? ('\\' :: mark :: rest) =
      (stringBody? rest).map fun (body, rest) => ('\\' :: mark :: body, rest) := by
  rw [stringBody?.eq_def]
  split <;> rename_i same
  · cases same
  · simp at same
  · simp [other] at same
  · obtain ⟨rfl, rfl⟩ : mark = _ ∧ rest = _ := by simpa using same
    exact if_pos simple
  · rename_i escape
    obtain ⟨rfl, rfl⟩ := List.cons.inj same
    exact (escape _ _ rfl rfl).elim

/-- Four digits are taken along with the mark in front of them. -/
theorem string_body_number {a b c d : Char} (rest : List Char)
    (digits : [a, b, c, d].all isHexDigit = true) :
    stringBody? ('\\' :: 'u' :: a :: b :: c :: d :: rest) =
      (stringBody? rest).map fun (body, rest) => (['\\', 'u', a, b, c, d] ++ body, rest) :=
  if_pos digits

/-- Any other character is taken by itself. -/
theorem string_body_plain {char : Char} (rest : List Char) (quote : char ≠ '"')
    (slash : char ≠ '\\') (printed : 0x20 ≤ char.toNat) :
    stringBody? (char :: rest) =
      (stringBody? rest).map fun (body, rest) => (char :: body, rest) := by
  rw [stringBody?.eq_def]
  split <;> rename_i same
  · cases same
  · simp [quote] at same
  · simp [slash] at same
  · simp [slash] at same
  · obtain ⟨rfl, rfl⟩ := List.cons.inj same
    exact if_neg (by simp [slash, Nat.not_lt.mpr printed])

theorem Spells.body {written text : List Char} (spells : Spells written text) (rest : List Char) :
    stringBody? (written ++ '"' :: rest) = some (written, rest) := by
  induction spells with
  | nil => rfl
  | plain quote slash printed _ induction =>
      rw [List.cons_append, string_body_plain _ quote slash printed, induction]
      rfl
  | marked listed _ induction =>
      obtain ⟨other, simple, -⟩ := mark_known _ listed
      rw [List.cons_append, List.cons_append, string_body_mark _ other simple, induction]
      rfl
  | numbered number _ _ induction =>
      simp only [List.cons_append]
      rw [string_body_number _ (hex_digits number), induction]
      rfl
  | paired first _ second _ _ induction =>
      simp only [List.cons_append]
      rw [string_body_number _ (hex_digits first), string_body_number _ (hex_digits second), induction]
      rfl

theorem Spells.decode {written text : List Char} (spells : Spells written text) :
    decode? none written = some text := by
  induction spells with
  | nil => rfl
  | plain _ slash _ _ induction =>
      rw [decode?, induction]
      · rfl
      all_goals simp [slash]
  | marked listed _ induction =>
      obtain ⟨other, -, known⟩ := mark_known _ listed
      rw [decode?]
      · simp [known, induction]
      · simp [other]
  | @numbered a b c d code written text number whole _ induction =>
      have single : isHighSurrogate code = false ∧ isLowSurrogate code = false := by
        simp only [isHighSurrogate, isLowSurrogate, Bool.and_eq_false_iff, decide_eq_false_iff_not]
        omega
      rw [decode?]
      simp [unit?, number, single, induction]
  | @paired a b c d e f g h high low written text first leads second trails _ induction =>
      have leading : isHighSurrogate high = true := by simp [isHighSurrogate, leads]
      have trailing : isLowSurrogate low = true := by simp [isLowSurrogate, trails]
      rw [decode?]
      simp only [unit?, first, leading, Option.bind_eq_bind, Option.bind_some, if_true]
      rw [decode?]
      simp [unit?, second, trailing, induction]

theorem Spells.text_of {written text : List Char} (spells : Spells written text) :
    textOf? written = some (String.ofList text) := by
  rw [textOf?, spells.decode, Option.map_some]

/-! ### Blanks -/

theorem skip_skip (chars : List Char) : skipSpace (skipSpace chars) = skipSpace chars :=
  List.dropWhile_idempotent _ chars

theorem IsBlank.skip {blank : List Char} (isBlank : IsBlank blank) (chars : List Char) :
    skipSpace (blank ++ chars) = skipSpace chars := by
  have spaces : ∀ char ∈ blank, isSpace char = true := by
    intro char member
    have listed := isBlank char member
    simp only [List.mem_cons, List.not_mem_nil, or_false] at listed
    rcases listed with rfl | rfl | rfl | rfl <;> rfl
  rw [skipSpace, List.dropWhile_append_of_pos spaces, skipSpace]

theorem value_skip (limit : Nat) (chars : List Char) :
    valueWithin limit (skipSpace chars) = valueWithin limit chars := by
  cases limit with
  | zero => rfl
  | succ limit => rw [valueWithin, valueWithin, skip_skip]

theorem items_skip (limit : Nat) (chars : List Char) :
    itemsWithin limit (skipSpace chars) = itemsWithin limit chars := by
  cases limit with
  | zero => rfl
  | succ limit => rw [itemsWithin, itemsWithin, value_skip]

theorem members_skip (limit : Nat) (chars : List Char) :
    membersWithin limit (skipSpace chars) = membersWithin limit chars := by
  cases limit with
  | zero => rfl
  | succ limit => rw [membersWithin, membersWithin, key?, key?, skip_skip]

theorem IsBlank.value {blank : List Char} (isBlank : IsBlank blank) (limit : Nat)
    (chars : List Char) : valueWithin limit (blank ++ chars) = valueWithin limit chars := by
  rw [← value_skip, isBlank.skip, value_skip]

/-! ### Arrays and objects, piece by piece -/

section

variable {limit : Nat} {chars behind next rest : List Char}

theorem array_read {items : List Json} (read : itemsWithin limit chars = some (items, rest))
    (inside : (skipSpace chars).head? ≠ some ']') :
    valueWithin (limit + 1) ('[' :: chars) = some (array items, rest) := by
  have solid : skipSpace ('[' :: chars) = '[' :: chars := rfl
  rw [← items_skip] at read
  simp only [valueWithin, solid]
  split
  · rename_i empty
    simp [empty] at inside
  · simp [read]

theorem item_last {item : Json} (read : valueWithin limit chars = some (item, behind))
    (closed : skipSpace behind = ']' :: rest) :
    itemsWithin (limit + 1) chars = some ([item], rest) := by
  simp [itemsWithin, read, closed]

theorem item_more {item : Json} {items : List Json}
    (read : valueWithin limit chars = some (item, behind))
    (comma : skipSpace behind = ',' :: next)
    (others : itemsWithin limit next = some (items, rest)) :
    itemsWithin (limit + 1) chars = some (item :: items, rest) := by
  simp [itemsWithin, read, comma, others]

theorem object_read {members : List (Option String × Json)}
    (read : membersWithin limit chars = some (members, rest))
    (inside : (skipSpace chars).head? ≠ some '\x7d') :
    valueWithin (limit + 1) ('\x7b' :: chars) = some (object members, rest) := by
  have solid : skipSpace ('\x7b' :: chars) = '\x7b' :: chars := rfl
  rw [← members_skip] at read
  simp only [valueWithin, solid]
  split
  · rename_i empty
    simp [empty] at inside
  · simp [read]

theorem key_read {front written key middle : List Char} (before : IsBlank front)
    (spells : Spells written key) (ahead : IsBlank middle) (rest : List Char) :
    key? (front ++ '"' :: (written ++ '"' :: (middle ++ ':' :: rest))) =
      some (some (String.ofList key), rest) := by
  have solid : ∀ chars, skipSpace ('"' :: chars) = '"' :: chars := fun _ => rfl
  have colon : skipSpace (':' :: rest) = ':' :: rest := rfl
  simp [key?, before.skip, solid, spells.body, spells.text_of, ahead.skip, colon]

theorem member_last {key : Option String} {value : Json} (named : key? chars = some (key, next))
    (read : valueWithin limit next = some (value, behind))
    (closed : skipSpace behind = '\x7d' :: rest) :
    membersWithin (limit + 1) chars = some ([(key, value)], rest) := by
  simp [membersWithin, named, read, closed]

theorem member_more {key : Option String} {after : List Char} {value : Json}
    {members : List (Option String × Json)} (named : key? chars = some (key, next))
    (read : valueWithin limit next = some (value, behind))
    (comma : skipSpace behind = ',' :: after)
    (others : membersWithin limit after = some (members, rest)) :
    membersWithin (limit + 1) chars = some ((key, value) :: members, rest) := by
  simp [membersWithin, named, read, comma, others]

end

/-! ### Values, whatever stands behind them -/

/-- A piece is read to its end. The limit is what reading the whole text leaves for it. -/
def Reads : Part → List Char → Prop
  | .value value, text => ∀ limit rest, 2 * text.length ≤ limit →
      valueWithin limit (text ++ rest) = some (value, rest)
  | .items items, text => ∀ limit rest, 2 * text.length + 1 ≤ limit →
      itemsWithin limit (text ++ ']' :: rest) = some (items, rest)
  | .members members, text => ∀ limit rest, 2 * text.length + 1 ≤ limit →
      membersWithin limit (text ++ '\x7d' :: rest) = some (members, rest)

/-- What comes first in a piece behind blanks: no bracket that closes it. -/
def Starts : Part → List Char → Prop
  | .value _, text => ∃ first more, text = first :: more ∧ isSpace first = false ∧ first ≠ ']'
  | .items _, text => ∀ rest, (skipSpace (text ++ rest)).head? ≠ some ']'
  | .members _, text => ∀ rest, (skipSpace (text ++ rest)).head? ≠ some '\x7d'

theorem Denotes.starts {depth : Nat} {part : Part} {text : List Char}
    (denotes : Denotes depth part text) : Starts part text := by
  have open_ : ∀ {item : Json} {front text : List Char}, IsBlank front →
      Starts (.value item) text → ∀ rest, (skipSpace (front ++ (text ++ rest))).head? ≠ some ']' := by
    rintro item front text before ⟨first, more, rfl, solid, apart⟩ rest
    rw [before.skip, List.cons_append, skipSpace, List.dropWhile_cons_of_neg (by simp [solid])]
    simpa using apart
  induction denotes with
  | null | yes | no | string | emptyArray | array | emptyObject | object =>
      exact ⟨_, _, rfl, rfl, by decide⟩
  | lastItem before _ _ starts | item before _ _ _ starts _ =>
      intro rest
      rw [List.append_assoc, List.append_assoc]
      exact open_ before starts _
  | lastMember before | member before =>
      intro rest
      rw [List.append_assoc, before.skip]
      simp [skipSpace, isSpace]

theorem Denotes.reads {depth : Nat} {part : Part} {text : List Char}
    (denotes : Denotes depth part text) : Reads part text := by
  have bracket : ∀ (mark : Char) (chars : List Char), isSpace mark = false →
      skipSpace (mark :: chars) = mark :: chars := fun mark chars solid => by
    rw [skipSpace, List.dropWhile_cons_of_neg (by simp [solid])]
  induction denotes with
  | null | yes | no =>
      intro limit rest enough
      obtain _ | limit := limit
      · simp at enough
      · rfl
  | string spells =>
      intro limit rest enough
      obtain _ | limit := limit
      · simp at enough
      · rw [List.cons_append, List.append_assoc, List.singleton_append, valueWithin,
          bracket _ _ rfl]
        simp [scalar?, spells.body, spells.text_of]
  | emptyArray isBlank =>
      intro limit rest enough
      obtain _ | limit := limit
      · simp at enough
      · have closed : ∀ chars, skipSpace (']' :: chars) = ']' :: chars := fun _ => rfl
        rw [List.cons_append, List.append_assoc, List.singleton_append, valueWithin, bracket _ _ rfl]
        simp [isBlank.skip, closed]
  | array inside induction =>
      intro limit rest enough
      simp only [List.length_cons, List.length_append, List.length_nil] at enough
      obtain _ | limit := limit
      · omega
      · rw [List.cons_append, List.append_assoc]
        exact array_read (induction limit rest (by omega)) (inside.starts _)
  | emptyObject isBlank =>
      intro limit rest enough
      obtain _ | limit := limit
      · simp at enough
      · have closed : ∀ chars, skipSpace ('\x7d' :: chars) = '\x7d' :: chars := fun _ => rfl
        rw [List.cons_append, List.append_assoc, List.singleton_append, valueWithin, bracket _ _ rfl]
        simp [isBlank.skip, closed]
  | object inside induction =>
      intro limit rest enough
      simp only [List.length_cons, List.length_append, List.length_nil] at enough
      obtain _ | limit := limit
      · omega
      · rw [List.cons_append, List.append_assoc]
        exact object_read (induction limit rest (by omega)) (inside.starts _)
  | lastItem before _ behind own =>
      intro limit rest enough
      simp only [List.length_append] at enough
      obtain _ | limit := limit
      · omega
      · rw [List.append_assoc, List.append_assoc]
        refine item_last ?_ ((behind.skip _).trans (bracket _ _ rfl))
        rw [before.value]
        exact own limit _ (by omega)
  | item before _ behind _ own others =>
      intro limit rest enough
      simp only [List.length_append, List.length_cons] at enough
      obtain _ | limit := limit
      · omega
      · simp only [List.append_assoc, List.cons_append]
        refine item_more ?_ ((behind.skip _).trans (bracket _ _ rfl)) (others limit rest (by omega))
        rw [before.value]
        exact own limit _ (by omega)
  | lastMember before spells ahead apart _ behind own =>
      intro limit rest enough
      simp only [List.length_append, List.length_cons] at enough
      obtain _ | limit := limit
      · omega
      · simp only [List.append_assoc, List.cons_append]
        refine member_last (key_read before spells ahead _) ?_
          ((behind.skip _).trans (bracket _ _ rfl))
        rw [apart.value]
        exact own limit _ (by omega)
  | member before spells ahead apart _ behind _ own others =>
      intro limit rest enough
      simp only [List.length_append, List.length_cons] at enough
      obtain _ | limit := limit
      · omega
      · simp only [List.append_assoc, List.cons_append]
        refine member_more (key_read before spells ahead _) ?_
          ((behind.skip _).trans (bracket _ _ rfl)) (others limit rest (by omega))
        rw [apart.value]
        exact own limit _ (by omega)

theorem IsDocument.read {depth : Nat} {value : Json} {document : String}
    (isDocument : IsDocument depth value document) : read? document = some value := by
  obtain ⟨front, text, back, before, denotes, behind, rfl⟩ := isDocument
  have own := denotes.reads (2 * (front ++ (text ++ back)).length + 2) back (by
    simp only [List.length_append]
    omega)
  have blank : skipSpace back = [] := by
    rw [← List.append_nil back, behind.skip]
    rfl
  rw [← before.value] at own
  simp only [read?, String.toList_ofList, own, blank]
  rfl

/-! ### Documents that are written -/

theorem newline_blank (depth : Nat) : IsBlank (newline depth) := by
  intro char member
  rcases List.mem_cons.mp member with rfl | inside
  · decide
  · rw [List.eq_of_mem_replicate inside]
    decide

theorem nil_blank : IsBlank [] := fun _ member => nomatch member

theorem hex_digits_of_control :
    ∀ code < 0x20, natural? 16 ['0', '0', hexDigit (code / 16), hexDigit (code % 16)] = some code := by
  decide

theorem encode_char_marked :
    ∀ pair ∈ escapeMarks, pair.2 ≠ '/' → encodeChar pair.2 = ['\\', pair.1] := by
  decide

theorem Spells.char {written text : List Char} (spells : Spells written text) (char : Char) :
    Spells (encodeChar char ++ written) (char :: text) := by
  by_cases special : ∃ mark, (mark, char) ∈ escapeMarks ∧ char ≠ '/'
  · obtain ⟨mark, listed, other⟩ := special
    rw [encode_char_marked _ listed other]
    exact .marked listed spells
  · have apart : ∀ pair ∈ escapeMarks, pair.2 ≠ '/' → char ≠ pair.2 := by
      rintro pair listed other rfl
      exact special ⟨pair.1, listed, other⟩
    simp only [escapeMarks] at apart
    obtain ⟨quote, slash, -, back, feed, line, carriage, tab, -⟩ := by
      simpa only [List.forall_mem_cons, ne_eq, Char.reduceEq, not_false_eq_true, true_implies,
        not_true_eq_false, false_implies] using apart
    rw [encodeChar, if_neg quote, if_neg slash, if_neg back, if_neg feed, if_neg line,
      if_neg carriage, if_neg tab]
    by_cases control : char.toNat < 0x20
    · rw [if_pos control]
      have spelled := Spells.numbered (hex_digits_of_control _ control) (by omega) spells
      rwa [Char.ofNat_toNat] at spelled
    · rw [if_neg control]
      exact .plain quote slash (by omega) spells

theorem encode_spells (text : List Char) : Spells (encode text) text := by
  induction text with
  | nil => exact .nil
  | cons char text induction => exact induction.char char

theorem string_denotes (depth : Nat) (text : String) :
    Denotes depth (.value (.string (some text))) (quoted (some text)) := by
  have own : Denotes depth _ (quoted (some text)) := .string (encode_spells text.toList)
  rwa [String.ofList_toList] at own

theorem items_denote {depth : Nat} {item : Json} {items : List Json} {inner : Nat} (outer : Nat)
    (each : ∀ part ∈ item :: items, Denotes depth (.value part) (part.written inner)) :
    Denotes depth (.items (item :: items))
      (newline inner ++ (item.written inner ++ (writtenItems inner items ++ newline outer))) := by
  induction items generalizing item with
  | nil =>
      exact .lastItem (newline_blank inner) (each _ List.mem_cons_self) (newline_blank outer)
  | cons second items induction =>
      have others := induction fun part member => each part (List.mem_cons_of_mem _ member)
      have own := Denotes.item (newline_blank inner) (each _ List.mem_cons_self) nil_blank others
      simpa [writtenItems] using own

theorem members_denote {depth : Nat} {member : Option String × Json}
    {members : List (Option String × Json)} {inner : Nat} (outer : Nat)
    (keys : ∀ part ∈ member :: members, part.1.isSome)
    (each : ∀ part ∈ member :: members, Denotes depth (.value part.2) (part.2.written inner)) :
    Denotes depth (.members (member :: members))
      (newline inner ++ (quoted member.1 ++ ':' :: ' ' :: (member.2.written inner ++
        (writtenMembers inner members ++ newline outer)))) := by
  have blank : IsBlank [' '] := by simp [IsBlank]
  induction members generalizing member with
  | nil =>
      obtain ⟨key, value⟩ := member
      have named : key.isSome := keys (key, value) List.mem_cons_self
      have denotes : Denotes depth (.value value) (value.written inner) :=
        each (key, value) List.mem_cons_self
      obtain ⟨name, rfl⟩ := Option.isSome_iff_exists.mp named
      have own := Denotes.lastMember (newline_blank inner) (encode_spells name.toList) nil_blank
        blank denotes (newline_blank outer)
      simp only [String.ofList_toList, quoted, writtenMembers, List.cons_append, List.append_assoc,
        List.nil_append] at own ⊢
      exact own
  | cons second members induction =>
      obtain ⟨key, value⟩ := member
      have named : key.isSome := keys (key, value) List.mem_cons_self
      have denotes : Denotes depth (.value value) (value.written inner) :=
        each (key, value) List.mem_cons_self
      obtain ⟨name, rfl⟩ := Option.isSome_iff_exists.mp named
      have others := induction (fun part member => keys part (List.mem_cons_of_mem _ member))
        fun part member => each part (List.mem_cons_of_mem _ member)
      have own := Denotes.member (newline_blank inner) (encode_spells name.toList) nil_blank
        blank denotes nil_blank others
      simp only [String.ofList_toList, quoted, writtenMembers, List.cons_append, List.append_assoc,
        List.nil_append] at own ⊢
      exact own

theorem Plain.denotes {depth : Nat} {value : Json} (plain : Plain depth value) (indent : Nat) :
    Denotes depth (.value value) (value.written indent) := by
  induction plain generalizing indent with
  | null => exact .null
  | bool value =>
      cases value with
      | true => exact .yes
      | false => exact .no
  | string text => exact string_denotes _ text
  | @array depth items _ induction =>
      cases items with
      | nil => exact .emptyArray nil_blank
      | cons item items =>
          have inside := items_denote indent fun part member => induction part member (indent + 1)
          simpa [written] using Denotes.array inside
  | @object depth members keys _ induction =>
      cases members with
      | nil => exact .emptyObject nil_blank
      | cons member members =>
          have inside := members_denote indent keys fun part member =>
            induction part member (indent + 1)
          simpa [written] using Denotes.object inside

theorem Plain.written {depth : Nat} {value : Json} (plain : Plain depth value) :
    IsDocument depth value value.write :=
  ⟨[], _, [], nil_blank, plain.denotes 0, nil_blank, by rw [write, List.append_nil, List.nil_append]⟩

end Lsl.Json
