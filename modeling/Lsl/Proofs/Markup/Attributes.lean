import Lsl.Library.Descriptor
import Lsl.Markup.Scanner
import Mathlib.Data.List.Nodup

/-!
Attributes as they are written, and what a reader gives of them: an attribute that is malformed or
repeats another is an error, and any other one comes with its value as it is written. What is read is
what was meant exactly if there is no error and no reference among the values.
-/

set_option autoImplicit false

namespace Lsl.Markup

/-- A character with the mark of markup it could be taken for replaced by a reference. -/
def escapeChar (char : Char) : List Char :=
  if char = '<' then "&lt;".toList
  else if char = '>' then "&gt;".toList
  else if char = '&' then "&amp;".toList
  else if char = '\'' then "&apos;".toList
  else if char = '"' then "&quot;".toList
  else [char]

/-- A text as it is written where characters could be taken for markup. -/
def escape (text : String) : String := String.ofList (text.toList.flatMap escapeChar)

def isSpecial (char : Char) : Bool := ['<', '>', '&', '\'', '"'].contains char

theorem is_special_iff {char : Char} :
    isSpecial char = true ↔ char = '<' ∨ char = '>' ∨ char = '&' ∨ char = '\'' ∨ char = '"' := by
  simp [isSpecial]

theorem escape_char_plain {char : Char} (plain : isSpecial char = false) :
    escapeChar char = [char] := by
  have apart := is_special_iff.not.mp (Bool.eq_false_iff.mp plain)
  simp only [not_or] at apart
  simp [escapeChar, apart]

theorem escape_char_longer {char : Char} (special : isSpecial char = true) :
    1 < (escapeChar char).length := by
  rcases is_special_iff.mp special with rfl | rfl | rfl | rfl | rfl <;> decide

theorem escape_chars_length (chars : List Char) :
    chars.length ≤ (chars.flatMap escapeChar).length ∧
      ((∃ char ∈ chars, isSpecial char = true) →
        chars.length < (chars.flatMap escapeChar).length) := by
  induction chars with
  | nil => simp
  | cons char chars induction =>
      rw [List.flatMap_cons, List.length_append, List.length_cons]
      cases special : isSpecial char with
      | true =>
          have longer := escape_char_longer special
          exact ⟨by omega, fun _ => by omega⟩
      | false =>
          rw [escape_char_plain special, List.length_singleton]
          refine ⟨by omega, fun ⟨other, member, isSpecial⟩ => ?_⟩
          rcases List.mem_cons.mp member with rfl | member
          · rw [special] at isSpecial
            cases isSpecial
          · have later := induction.2 ⟨other, member, isSpecial⟩
            omega

theorem escape_eq_self_iff {text : String} :
    escape text = text ↔ ∀ char ∈ text.toList, isSpecial char = false := by
  constructor
  · intro same char member
    by_contra special
    have longer := (escape_chars_length text.toList).2 ⟨char, member, by simpa using special⟩
    rw [← String.toList_ofList (l := text.toList.flatMap escapeChar)] at longer
    exact absurd (congrArg (·.toList.length) same) (Nat.ne_of_gt longer)
  · intro plain
    have single : text.toList.flatMap escapeChar = text.toList.flatMap ([·]) :=
      List.flatMap_congr fun char member => escape_char_plain (plain char member)
    simp [escape, single]

namespace Scanner

theorem decode_escape_char (char : Char) (rest : List Char) :
    decodeFrom none (escapeChar char ++ rest) = (decodeFrom none rest).map (char :: ·) := by
  cases special : isSpecial char with
  | true => rcases is_special_iff.mp special with rfl | rfl | rfl | rfl | rfl <;> rfl
  | false =>
      have apart := is_special_iff.not.mp (Bool.eq_false_iff.mp special)
      simp only [not_or] at apart
      rw [escape_char_plain special]
      simp [decodeFrom, apart]

theorem decode_escape (text : String) : unescape? (escape text) = some text := by
  have chars : ∀ chars : List Char, decodeFrom none (chars.flatMap escapeChar) = some chars := by
    intro chars
    induction chars with
    | nil => rfl
    | cons char chars induction => rw [List.flatMap_cons, decode_escape_char, induction]; rfl
  simp [unescape?, escape, chars]

end Scanner

theorem unescape_escape (text : String) : scanner.unescape? (escape text) = some text := by
  have reads : scanner.unescape? = Scanner.unescape? := rfl
  rw [reads, Scanner.decode_escape]

/-- An attribute as it is written in a tag: its key and what stands between its quotes, unless it is
malformed. -/
structure Attribute where
  key : String
  raw? : Option String
deriving DecidableEq, Repr

/-- What is given of attributes behind others with certain keys. Whether the key of a malformed one
counts is left to the reader. -/
inductive Yields : List String → List Attribute → List (Option (String × String)) → Prop
  | nil (seen : List String) : Yields seen [] []
  | value {seen : List String} {key raw : String} {items : List Attribute}
      {given : List (Option (String × String))} (new : key ∉ seen)
      (rest : Yields (key :: seen) items given) :
      Yields seen (⟨key, some raw⟩ :: items) (some (key, raw) :: given)
  | repeated {seen : List String} {item : Attribute} {items : List Attribute}
      {given : List (Option (String × String))} (known : item.key ∈ seen)
      (rest : Yields seen items given) : Yields seen (item :: items) (none :: given)
  | malformed {seen after : List String} {key : String} {items : List Attribute}
      {given : List (Option (String × String))} (counts : after = seen ∨ after = key :: seen)
      (rest : Yields after items given) : Yields seen (⟨key, none⟩ :: items) (none :: given)

namespace Yields

variable {seen : List String} {items : List Attribute} {given : List (Option (String × String))}

theorem keys_new (yields : Yields seen items given) :
    (∀ pair ∈ given.filterMap id, pair.1 ∉ seen) ∧ ((given.filterMap id).map (·.1)).Nodup := by
  induction yields with
  | nil seen => simp
  | @value seen key raw items given new rest induction =>
      obtain ⟨fresh, distinct⟩ := induction
      have shown : (some (key, raw) :: given).filterMap id = (key, raw) :: given.filterMap id := rfl
      rw [shown, List.map_cons, List.nodup_cons]
      refine ⟨fun pair member => ?_, fun again => ?_, distinct⟩
      · rcases List.mem_cons.mp member with rfl | member
        · exact new
        · exact fun known => fresh pair member (List.mem_cons_of_mem _ known)
      · obtain ⟨pair, member, same⟩ := List.mem_map.mp again
        exact fresh pair member (same ▸ List.mem_cons_self)
  | repeated known rest induction => exact induction
  | malformed counts rest induction =>
      refine ⟨fun pair member known => induction.1 pair member ?_, induction.2⟩
      rcases counts with rfl | rfl
      · exact known
      · exact List.mem_cons_of_mem _ known

theorem length_eq (yields : Yields seen items given) : given.length = items.length := by
  induction yields with
  | nil => rfl
  | value _ _ induction | repeated _ _ induction | malformed _ _ induction =>
      exact congrArg (· + 1) induction

/-- There is no error exactly if all attributes are well-formed and their keys are new and
distinct. -/
theorem errorless_iff (yields : Yields seen items given) :
    (∀ one ∈ given, one.isSome) ↔
      (∀ item ∈ items, item.raw?.isSome ∧ item.key ∉ seen) ∧ (items.map Attribute.key).Nodup := by
  induction yields with
  | nil => simp
  | @value seen key raw items given new rest induction =>
      rw [List.forall_mem_cons, List.forall_mem_cons, induction, List.map_cons, List.nodup_cons]
      simp only [Option.isSome_some, true_and, List.mem_cons, not_or, List.mem_map, not_exists,
        not_and]
      constructor
      · rintro ⟨all, distinct⟩
        exact ⟨⟨new, fun item member => ⟨(all item member).1, (all item member).2.2⟩⟩,
          fun item member same => (all item member).2.1 same, distinct⟩
      · rintro ⟨⟨_, all⟩, apart, distinct⟩
        exact ⟨fun item member => ⟨(all item member).1, apart item member, (all item member).2⟩,
          distinct⟩
  | repeated known _ _ => simp [known]
  | malformed _ _ _ => simp

theorem errorless_eq (yields : Yields seen items given) (errorless : ∀ one ∈ given, one.isSome) :
    given = items.map fun item => item.raw?.map (item.key, ·) := by
  induction yields with
  | nil => rfl
  | value _ _ induction =>
      rw [List.map_cons, ← induction fun one member => errorless one (List.mem_cons_of_mem _ member)]
      rfl
  | repeated _ _ _ | malformed _ _ _ => cases errorless none List.mem_cons_self

end Yields

/-- What attributes mean: each has the text that its value stands for. -/
def meanings (reader : Reader) (items : List Attribute) : List (Option (String × String)) :=
  items.map fun item => (item.raw?.bind reader.unescape?).map (item.key, ·)

theorem map_some_of_errorless {α : Type} {given : List (Option α)}
    (errorless : ∀ one ∈ given, one.isSome) : (given.filterMap id).map some = given := by
  induction given with
  | nil => rfl
  | cons one given induction =>
      obtain ⟨first, others⟩ := List.forall_mem_cons.mp errorless
      obtain ⟨value, rfl⟩ := Option.isSome_iff_exists.mp first
      exact congrArg (some value :: ·) (induction others)

/-- Attributes are given with what they mean exactly if each is well-formed and stands for itself and
no key occurs twice. -/
theorem Yields.faithful_iff {reader : Reader} {items : List Attribute}
    {given : List (Option (String × String))} (yields : Yields [] items given) :
    (given.filterMap id).map some = meanings reader items ↔
      (∀ item ∈ items, ∃ raw ∈ item.raw?, reader.unescape? raw = some raw) ∧
        (items.map Attribute.key).Nodup := by
  constructor
  · intro same
    have count : (given.filterMap id).length = given.length := by
      rw [yields.length_eq, ← List.length_map some, same, meanings, List.length_map]
    have errorless : ∀ one ∈ given, one.isSome := by
      simpa using List.filterMap_length_eq_length.mp count
    obtain ⟨formed, distinct⟩ := yields.errorless_iff.mp errorless
    refine ⟨fun item member => ?_, distinct⟩
    obtain ⟨raw, found⟩ := Option.isSome_iff_exists.mp (formed item member).1
    rw [map_some_of_errorless errorless, yields.errorless_eq errorless] at same
    have meant := List.map_inj_left.mp same item member
    rw [found] at meant
    obtain ⟨text, unescaped, equal⟩ := Option.map_eq_some_iff.mp meant.symm
    exact ⟨raw, found, unescaped.trans (congrArg some (Prod.mk.inj equal).2)⟩
  · rintro ⟨plain, distinct⟩
    have errorless : ∀ one ∈ given, one.isSome := by
      refine yields.errorless_iff.mpr ⟨fun item member => ⟨?_, List.not_mem_nil⟩, distinct⟩
      obtain ⟨raw, found, _⟩ := plain item member
      exact Option.isSome_of_mem found
    rw [map_some_of_errorless errorless, yields.errorless_eq errorless]
    refine List.map_congr_left fun item member => ?_
    obtain ⟨raw, found, itself⟩ := plain item member
    rw [Option.mem_def.mp found, Option.bind_some, itself]

end Lsl.Markup
