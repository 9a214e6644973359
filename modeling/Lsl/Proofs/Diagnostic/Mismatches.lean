import Mathlib.Data.List.TakeWhile
import Lsl.Diagnostic.Grammar
import Lsl.Proofs.Parsing.Blaming
import Lsl.Proofs.Token.Texts

/-!
What messages of the grammar say of assignments. A message holds the text of the token that was not
expected as it is written, and it is searched as a whole. Where the token is not a string, the words
that are searched for can only begin where the message does; inside of a string they may begin again.
-/

set_option autoImplicit false

namespace Lsl

namespace Text

theorem append_of_drop_front {front chars rest : List Char}
    (found : dropFront? front chars = some rest) : chars = front ++ rest := by
  induction front generalizing chars with
  | nil => exact Option.some.inj found
  | cons wanted front induction =>
      cases chars with
      | nil => cases found
      | cons char chars =>
          rw [dropFront?] at found
          split at found
          · rename_i same
            rw [same, induction found, List.cons_append]
          · cases found

/-- Where a space is wanted, an apostrophe comes first. -/
theorem drop_front_none {before more chars rest : List Char} (quoteless : '\'' ∉ before)
    (spaceless : ' ' ∉ chars) :
    dropFront? (before ++ ' ' :: more) (chars ++ '\'' :: rest) = none := by
  induction before generalizing chars with
  | nil =>
      cases chars with
      | nil => rfl
      | cons char chars =>
          have other : ' ' ≠ char := fun same => spaceless (same ▸ List.mem_cons_self)
          exact if_neg other
  | cons wanted before induction =>
      cases chars with
      | nil =>
          have other : wanted ≠ '\'' := fun same => quoteless (same ▸ List.mem_cons_self)
          exact if_neg other
      | cons char chars =>
          simp only [List.cons_append, dropFront?]
          split
          · exact induction (fun inside => quoteless (List.mem_cons_of_mem _ inside))
              fun inside => spaceless (List.mem_cons_of_mem _ inside)
          · rfl

theorem up_to_mark {mark : Char} {front : List Char} (out : mark ∉ front) (back : List Char) :
    (front ++ mark :: back).takeWhile (· ≠ mark) = front := by
  have passes : ∀ char ∈ front, decide (char ≠ mark) = true := fun char inside =>
    decide_eq_true (ne_of_mem_of_not_mem inside out)
  rw [List.takeWhile_append_of_pos passes, List.takeWhile_cons_of_neg (by simp), List.append_nil]

/-- A text without a mark that a marked text begins with comes to its end before the mark. -/
theorem prefix_of_unmarked {mark : Char} {front last chars rest : List Char} (out : mark ∉ front)
    (same : chars ++ mark :: rest = front ++ last) : front <+: chars := by
  rcases List.append_eq_append_iff.mp same with ⟨more, longer, marked⟩ | ⟨more, shorter, _⟩
  · cases more with
    | nil => exact ⟨[], by simpa using longer⟩
    | cons first more =>
        obtain ⟨rfl, _⟩ := List.cons.inj marked
        exact absurd (longer ▸ List.mem_append_right _ List.mem_cons_self) out
  · exact ⟨more, shorter.symm⟩

end Text

namespace SyntaxError

/-- What a message says in front of the token and behind it. -/
def inFront : List Char := "mismatched input '".toList

def behind (expecting : List Char) : List Char := "' expecting ".toList ++ expecting

def told (text expecting : List Char) : List Char := inFront ++ (text ++ behind expecting)

/-- What was expected instead of an assignment, if it stands behind the first words of a message. -/
def expectedBehind? (chars : List Char) : Option (List Char) :=
  (Text.dropFront? "=' expecting \x7b".toList (dropModifier chars)).bind (Text.lineUpTo? '\x7d')

theorem expected_at_front (chars : List Char) :
    expectedAtFront? chars = (Text.dropFront? inFront chars).bind expectedBehind? := rfl

theorem expected_for_cons (char : Char) (rest : List Char) :
    expectedFor? (char :: rest) = (expectedAtFront? (char :: rest)).or (expectedFor? rest) := by
  rw [expectedFor?]
  cases expectedAtFront? (char :: rest) <;> rfl

theorem is_mismatch_eq {first second : String}
    (same : expectedFor? first.toList = expectedFor? second.toList) :
    isAssignmentMismatch first = isAssignmentMismatch second := by
  simp only [isAssignmentMismatch, same]

theorem not_mismatch {message : String} (nothing : expectedFor? message.toList = none) :
    isAssignmentMismatch message = false := by
  simp only [isAssignmentMismatch, nothing]

/-- What is expected tells of no assignment by itself, and of an assignment that was not expected
only where an operator was. -/
theorem expectations_told : ∀ expecting ∈ expectations,
    expectedFor? (behind expecting.toList) = none ∧
      expectedFor? ("missing ".toList ++ expecting.toList ++ " at '<EOF>'".toList) = none ∧
        isAssignmentMismatch ("mismatched input '" ++ "=" ++ "' expecting " ++ expecting) =
          decide (expecting = Parser.afterExpression) := by
  simp only [isAssignmentMismatch, String.toList_append, Text.splitCommas, Text.trim,
    String.toList_ofList, List.map_map, Function.comp_def]
  decide +kernel

section

variable {text expecting : List Char}

/-- In a text without a space the words do not begin: what follows it is an apostrophe. -/
theorem expected_for_behind (spaceless : ' ' ∉ text) :
    expectedFor? (text ++ behind expecting) = expectedFor? (behind expecting) := by
  have words : inFront = "mismatched".toList ++ ' ' :: "input '".toList := by decide
  have quoteless : '\'' ∉ "mismatched".toList := by decide
  induction text with
  | nil => rfl
  | cons char text induction =>
      have apart : Text.dropFront? inFront (char :: text ++ behind expecting) = none := by
        rw [words]
        exact Text.drop_front_none quoteless spaceless
      have nothing : expectedAtFront? (char :: text ++ behind expecting) = none := by
        rw [expected_at_front, apart, Option.bind_none]
      rw [List.cons_append] at nothing ⊢
      rw [expected_for_cons, nothing, Option.none_or]
      exact induction fun inside => spaceless (List.mem_cons_of_mem _ inside)

/-- The words are found where the message begins, or in what follows its own words. -/
theorem expected_for_told : expectedFor? (told text expecting) =
    (expectedBehind? (text ++ behind expecting)).or (expectedFor? (text ++ behind expecting)) := by
  have begins : expectedAtFront? (told text expecting) = expectedBehind? (text ++ behind expecting) :=
    rfl
  have onward : expectedFor? ("ismatched input '".toList ++ (text ++ behind expecting)) =
      expectedFor? (text ++ behind expecting) := rfl
  rw [← begins, ← onward]
  exact expected_for_cons 'm' _

theorem expected_behind_assignment (sign : text ∈ assignmentTexts) :
    expectedBehind? (text ++ behind expecting) =
      (Text.dropFront? ['\x7b'] expecting).bind (Text.lineUpTo? '\x7d') := by
  simp only [assignmentTexts, List.mem_cons, List.not_mem_nil, or_false] at sign
  rcases sign with rfl | rfl | rfl | rfl | rfl | rfl <;> rfl

theorem sign_of_expected_behind {chars expected : List Char}
    (found : expectedBehind? chars = some expected) :
    ∃ sign ∈ assignmentTexts, ∃ rest, chars = sign ++ '\'' :: (" expecting \x7b".toList ++ rest) := by
  obtain ⟨rest, front, _⟩ := Option.bind_eq_some_iff.mp found
  have shape : dropModifier chars = '=' :: '\'' :: (" expecting \x7b".toList ++ rest) :=
    Text.append_of_drop_front front
  cases chars with
  | nil => cases shape
  | cons char chars =>
      rw [dropModifier] at shape
      split at shape
      · rename_i modifies
        have modifiers : [char, '='] ∈ assignmentTexts := by
          simp only [isModifier, Bool.or_eq_true, beq_iff_eq] at modifies
          rcases modifies with (((rfl | rfl) | rfl) | rfl) | rfl <;> decide
        exact ⟨_, modifiers, rest, by rw [shape, List.cons_append, List.cons_append, List.nil_append]⟩
      · exact ⟨['='], by decide, rest, shape⟩

theorem assignments_quoteless : ∀ sign ∈ assignmentTexts, '\'' ∉ sign ∧ ' ' ∉ sign ∧ '"' ∉ sign := by
  decide

theorem assignment_of_expected_behind {expected : List Char} (quoteless : '\'' ∉ text)
    (found : expectedBehind? (text ++ behind expecting) = some expected) :
    text ∈ assignmentTexts := by
  obtain ⟨sign, known, rest, shape⟩ := sign_of_expected_behind found
  have same : text = sign :=
    calc
      text = (text ++ behind expecting).takeWhile (· ≠ '\'') := (Text.up_to_mark quoteless _).symm
      _ = sign := by rw [shape, Text.up_to_mark (assignments_quoteless sign known).1]
  exact same ▸ known

def assignmentWords (sign : List Char) : List Char :=
  inFront ++ (sign ++ "' expecting \x7b".toList)

theorem words_of_expected_for {rest expected : List Char} (quiet : expectedFor? rest = none)
    (found : expectedFor? (text ++ '"' :: rest) = some expected) :
    ∃ sign ∈ assignmentTexts, assignmentWords sign <:+: text := by
  induction text with
  | nil =>
      have nothing : expectedFor? ('"' :: rest) = expectedFor? rest := rfl
      rw [List.nil_append, nothing, quiet] at found
      cases found
  | cons char text induction =>
      rw [List.cons_append, expected_for_cons, Option.or_eq_some_iff] at found
      rcases found with here | ⟨_, later⟩
      · rw [expected_at_front] at here
        obtain ⟨more, front, behind⟩ := Option.bind_eq_some_iff.mp here
        obtain ⟨sign, known, last, shape⟩ := sign_of_expected_behind behind
        have words : char :: text ++ '"' :: rest = assignmentWords sign ++ last := by
          have ends : "' expecting \x7b".toList = '\'' :: " expecting \x7b".toList := by decide
          rw [List.cons_append, Text.append_of_drop_front front, shape, assignmentWords, ends]
          simp only [List.append_assoc, List.cons_append]
        have unquoted : '"' ∉ assignmentWords sign := by
          have fixed : '"' ∉ inFront ∧ '"' ∉ "' expecting \x7b".toList := by decide
          simp only [assignmentWords, List.mem_append, not_or]
          exact ⟨fixed.1, (assignments_quoteless sign known).2.2, fixed.2⟩
        exact ⟨sign, known, (Text.prefix_of_unmarked unquoted words).isInfix⟩
      · obtain ⟨sign, known, inside⟩ := induction later
        exact ⟨sign, known, List.infix_cons inside⟩

end

section

variable {text expecting : String}

theorem behind_message : (text ++ "' expecting " ++ expecting).toList =
    text.toList ++ behind expecting.toList := by
  have parts (first second third : String) : (first ++ second ++ third).toList =
      first.toList ++ (second.toList ++ third.toList) := by
    simp only [String.toList_append, List.append_assoc]
  exact parts text "' expecting " expecting

theorem told_message : ("mismatched input '" ++ text ++ "' expecting " ++ expecting).toList =
    told text.toList expecting.toList := by
  have parts (first second third fourth : String) : (first ++ second ++ third ++ fourth).toList =
      first.toList ++ (second.toList ++ (third.toList ++ fourth.toList)) := by
    simp only [String.toList_append, List.append_assoc]
  exact parts "mismatched input '" text "' expecting " expecting

variable (listed : expecting ∈ expectations)

include listed

theorem mismatch_of_sign (sign : text.toList ∈ assignmentTexts) :
    isAssignmentMismatch ("mismatched input '" ++ text ++ "' expecting " ++ expecting) =
      decide (expecting = Parser.afterExpression) := by
  obtain ⟨quiet, _, operators⟩ := expectations_told expecting listed
  have found {text : String} (sign : text.toList ∈ assignmentTexts) :
      expectedFor? ("mismatched input '" ++ text ++ "' expecting " ++ expecting).toList =
        (Text.dropFront? ['\x7b'] expecting.toList).bind (Text.lineUpTo? '\x7d') := by
    rw [told_message, expected_for_told, expected_behind_assignment sign,
      expected_for_behind (assignments_quoteless _ sign).2.1, quiet, Option.or_none]
  rw [← operators]
  exact is_mismatch_eq ((found sign).trans (found (by decide)).symm)

theorem not_mismatch_of_plain (plain : ' ' ∉ text.toList ∧ '\'' ∉ text.toList)
    (other : text.toList ∉ assignmentTexts) :
    isAssignmentMismatch ("mismatched input '" ++ text ++ "' expecting " ++ expecting) = false := by
  obtain ⟨quiet, _⟩ := expectations_told expecting listed
  have nothing : expectedBehind? (text.toList ++ behind expecting.toList) = none := by
    rw [Option.eq_none_iff_forall_not_mem]
    exact fun expected found => other (assignment_of_expected_behind plain.2 found)
  refine not_mismatch ?_
  rw [told_message, expected_for_told, nothing, expected_for_behind plain.1, quiet, Option.or_none]

theorem not_mismatch_of_missing :
    isAssignmentMismatch ("missing " ++ expecting ++ " at '<EOF>'") = false := by
  refine not_mismatch ?_
  rw [String.toList_append, String.toList_append]
  exact (expectations_told expecting listed).2.1

omit listed

variable {inner : List Char}

theorem mismatch_of_quoted (quoted : text.toList = '"' :: inner) :
    isAssignmentMismatch ("mismatched input '" ++ text ++ "' expecting " ++ expecting) =
      isAssignmentMismatch (text ++ "' expecting " ++ expecting) := by
  have nothing : expectedBehind? ('"' :: (inner ++ behind expecting.toList)) = none := rfl
  rw [← List.cons_append, ← quoted] at nothing
  refine is_mismatch_eq ?_
  rw [told_message, expected_for_told, nothing, Option.none_or, behind_message]

include listed

theorem words_of_quoted (quoted : text.toList = '"' :: (inner ++ ['"']))
    (mismatch : isAssignmentMismatch (text ++ "' expecting " ++ expecting) = true) :
    ∃ sign ∈ assignmentTexts, assignmentWords sign <:+: inner := by
  obtain ⟨quiet, _⟩ := expectations_told expecting listed
  cases found : expectedFor? (text ++ "' expecting " ++ expecting).toList with
  | none =>
      rw [not_mismatch found] at mismatch
      cases mismatch
  | some expected =>
      have first : expectedFor? ('"' :: (inner ++ '"' :: behind expecting.toList)) =
          expectedFor? (inner ++ '"' :: behind expecting.toList) := rfl
      rw [behind_message, quoted, List.cons_append, List.append_assoc, List.singleton_append,
        first] at found
      exact words_of_expected_for quiet found

end

end SyntaxError

end Lsl
