import Lsl.Proofs.Checking.Spelling
import Lsl.Proofs.Diagnostic.Lines

/-!
Where the caret of a shown diagnostic stands. The line is shown without its indentation and the caret
is moved to the right by the bytes in front of the place, so it stands under the column exactly if
no character in front takes more than one byte.
-/

set_option autoImplicit false

namespace Lsl

namespace Diagnostic

/-- The number of spaces and tabs that a line starts with. -/
def indentOf (line : List Char) : Nat := (line.takeWhile isIndent).length

def shownLine (line : List Char) : String := String.ofList (Text.trimRight (line.drop (indentOf line)))

/-- What stands to the left of a shown line. -/
def gutter (number : Nat) : String := toString number ++ " | "

/-- What stands to the left in the lines around it. -/
def margin (number : Nat) : String := spaces ((toString number).length + 1) ++ "|"

/-- All of a shown diagnostic that stands above its last line. -/
def above (diagnostic : Diagnostic) (file : String) (line : List Char) : String :=
  let number := diagnostic.span.start.line
  diagnostic.heading ++ diagnostic.location file ++ margin number ++ "\n" ++
    gutter number ++ shownLine line ++ "\n"

/-- The text shows the line, and the caret in its last line stands under the character at the column,
which is counted in the whole line. -/
def PointsAt (diagnostic : Diagnostic) (file rendered : String) (line : List Char)
    (column : Nat) : Prop :=
  ∃ under behind : List Char, '^' ∉ under ∧ '\n' ∉ under ++ behind ∧
    rendered = diagnostic.above file line ++ String.ofList (under ++ '^' :: behind) ++ "\n" ∧
      under.length = (gutter diagnostic.span.start.line).length + (column - indentOf line)

/-- What stands to the left of the caret. -/
def underline (number dashes : Nat) : List Char :=
  (margin number).toList ++ ' ' :: List.replicate dashes '-'

theorem underline_length (number dashes : Nat) :
    (underline number dashes).length = (gutter number).length + dashes := by
  have three : " | ".length = 3 := rfl
  have one : "|".length = 1 := rfl
  simp only [underline, margin, gutter, spaces, String.toList_append, String.toList_ofList,
    List.length_append, List.length_replicate, List.length_cons, String.length_append, three,
    String.length_toList, one]
  omega

theorem underline_plain (number dashes : Nat) :
    '^' ∉ underline number dashes ∧ '\n' ∉ underline number dashes := by
  have bar : "|".toList = ['|'] := rfl
  simp [underline, margin, spaces, bar, List.mem_replicate]

theorem same_front {mark : Char} {front other behind more : List Char} (free : mark ∉ front)
    (unmarked : mark ∉ other) (same : front ++ mark :: behind = other ++ mark :: more) :
    front = other ∧ behind = more := by
  have places := congrArg (List.idxOf mark) same
  rw [List.idxOf_append_of_notMem free, List.idxOf_append_of_notMem unmarked,
    List.idxOf_cons_self, List.idxOf_cons_self] at places
  obtain ⟨fronts, behinds⟩ := List.append_inj same (by simpa using places)
  exact ⟨fronts, (List.cons.inj behinds).2⟩

section

variable {diagnostic : Diagnostic} {source : String} {inside rest : List Char}
  (found : LinePlace.find? source diagnostic.span.start.offset =
    some ⟨diagnostic.span.start.line, inside ++ rest, Text.byteSize inside⟩)

include found

theorem render_eq (file : String) :
    diagnostic.render source file = diagnostic.above file (inside ++ rest) ++
      String.ofList (underline diagnostic.span.start.line
        (Text.byteSize inside - indentOf (inside ++ rest)) ++
          '^' :: ' ' :: diagnostic.problem.message.toList) ++ "\n" := by
  simp [render, found, excerpt, above, underline, margin, gutter, shownLine, indentOf,
    String.ext_iff]

theorem points_at_iff (file : String) {column : Nat} :
    diagnostic.PointsAt file (diagnostic.render source file) (inside ++ rest) column ↔
      '\n' ∉ diagnostic.problem.message.toList ∧
        Text.byteSize inside - indentOf (inside ++ rest) = column - indentOf (inside ++ rest) := by
  rw [render_eq found file]
  clear found
  generalize dashed : Text.byteSize inside - indentOf (inside ++ rest) = dashes
  obtain ⟨unmarked, unbroken⟩ := underline_plain diagnostic.span.start.line dashes
  have long := underline_length diagnostic.span.start.line dashes
  constructor
  · rintro ⟨under, behind, free, whole, same, length⟩
    have texts := congrArg String.toList same
    simp only [String.toList_append, String.toList_ofList] at texts
    have lines := List.append_cancel_left (List.append_cancel_right texts)
    obtain ⟨rfl, rfl⟩ := same_front unmarked free lines
    refine ⟨fun member => whole ?_, by omega⟩
    exact List.mem_append_right _ (List.mem_cons_of_mem _ member)
  · rintro ⟨single, rfl⟩
    refine ⟨_, _, unmarked, ?_, rfl, long⟩
    simp [unbroken, single]

end

end Diagnostic

theorem Text.IsLine.alone {before line after : List Char} (isLine : IsLine before line after)
    (single : '\n' ∉ before ++ line ++ after) : before = [] ∧ after = [] := by
  simp only [List.mem_append, not_or] at single
  constructor
  · rcases isLine.starts with none | ended
    · exact none
    · exact absurd (List.mem_of_getLast? ended) single.1.1
  · obtain ⟨body, _, rfl | ⟨_, none⟩⟩ := isLine.runs
    · exact absurd (by simp) single.1.2
    · exact none

theorem Text.byte_size_eq_length_iff (chars : List Char) :
    byteSize chars = chars.length ↔ ∀ char ∈ chars, char.utf8Size = 1 := by
  induction chars with
  | nil => simp [byteSize]
  | cons char rest induction =>
      have := char.utf8Size_pos
      have := length_le_byte_size rest
      rw [List.forall_mem_cons, ← induction, byteSize, List.length_cons]
      omega

/-- A diagnostic is shown with the line in which it starts, and the caret of the line below has the
bytes between the indentation and the start in front of it. Unless the start is in the indentation,
the caret stands in the last line under the column exactly if the message is one line and every
character in front of the start is one byte. -/
theorem caret_under_column_iff (library : Library) (source file : String) {report : Diagnostic}
    (member : report ∈ (checkSource library source).reports) :
    ∃ before inside rest after, source.toList = before ++ (inside ++ rest) ++ after ∧
      Text.IsLine before (inside ++ rest) after ∧ report.span.start.Behind (before ++ inside) ∧
        inside.length = report.span.start.column ∧
      report.render source file = report.above file (inside ++ rest) ++
        String.ofList (Diagnostic.underline report.span.start.line
          (Text.byteSize inside - Diagnostic.indentOf (inside ++ rest)) ++
            '^' :: ' ' :: report.problem.message.toList) ++ "\n" ∧
      (Diagnostic.indentOf (inside ++ rest) ≤ report.span.start.column →
        (report.PointsAt file (report.render source file) (inside ++ rest)
            report.span.start.column ↔
          '\n' ∉ report.problem.message.toList ∧ ∀ char ∈ inside, char.utf8Size = 1)) := by
  obtain ⟨front, leads, behind⟩ :=
    boundary_behind source (reports_genuine source library member).start
  obtain ⟨before, inside, rest, after, split, line, rfl, column, found⟩ :=
    LinePlace.find_behind leads behind
  refine ⟨before, inside, rest, after, split, line, behind, column,
    Diagnostic.render_eq found file, fun outside => ?_⟩
  have longer := Text.length_le_byte_size inside
  rw [Diagnostic.points_at_iff found, ← Text.byte_size_eq_length_iff]
  refine and_congr_right fun _ => ?_
  omega

/-- The caret of a diagnostic in an indented line. -/
theorem indented_name_pointed_at :
    let source := "\tdefault \x7b state_entry() \x7b x; \x7d \x7d"
    ∃ report ∈ (checkSource .minimal source).reports, report.span.start.column = 27 ∧
      report.PointsAt "script.lsl" (report.render source "script.lsl") source.toList 27 := by
  intro source
  have spelled : source = String.ofList _ := rfl
  have member : (⟨.undeclaredVariable "x", ⟨⟨27, 1, 27⟩, ⟨28, 1, 28⟩⟩⟩ : Diagnostic) ∈
      (checkSource .minimal source).reports := by
    rw [check_source_spelled spelled]
    decide +kernel
  refine ⟨_, member, rfl, ?_⟩
  obtain ⟨before, inside, rest, after, split, line, _, column, _, pointed⟩ :=
    caret_under_column_iff .minimal source "script.lsl" member
  have single : '\n' ∉ source.toList := by decide +kernel
  have narrow : ∀ char ∈ source.toList, char.utf8Size = 1 := by
    simpa using (by decide +kernel : source.toList.all (·.utf8Size == 1) = true)
  have indented : Diagnostic.indentOf source.toList ≤ 27 := by decide +kernel
  obtain ⟨rfl, rfl⟩ := line.alone (split ▸ single)
  rw [List.nil_append, List.append_nil] at split
  rw [split] at narrow indented ⊢
  refine (pointed indented).mpr ⟨by decide +kernel, fun char inner => ?_⟩
  exact narrow char (List.mem_append_left _ inner)

/-- The two bytes of one character in front of it move the caret to the right of the mark it is
about. -/
theorem wide_character_moves_caret :
    let source := "/* é */ #"
    ∃ report ∈ (checkSource .minimal source).reports, report.span.start.column = 8 ∧
      report.render source "script.lsl" =
        "Error: UnrecognisedToken\n-> script.lsl:1:8\n  |\n1 | /* é */ #\n" ++
          "  | ---------^ unrecognised token: \"#\"\n" ∧
      ¬ report.PointsAt "script.lsl" (report.render source "script.lsl") source.toList 8 := by
  intro source
  have spelled : source = String.ofList _ := rfl
  have member : (⟨.unrecognisedToken "#", ⟨⟨9, 1, 8⟩, ⟨10, 1, 9⟩⟩⟩ : Diagnostic) ∈
      (checkSource .minimal source).reports := by
    rw [check_source_spelled spelled]
    decide +kernel
  have found : LinePlace.find? source 9 = some ⟨1, ['/', '*', ' ', 'é', ' ', '*', '/', ' '] ++ ['#'],
      Text.byteSize ['/', '*', ' ', 'é', ' ', '*', '/', ' ']⟩ := by
    decide +kernel
  have split : source.toList = ['/', '*', ' ', 'é', ' ', '*', '/', ' '] ++ ['#'] := by
    decide +kernel
  refine ⟨_, member, rfl, by decide +kernel, fun pointed => ?_⟩
  rw [split] at pointed
  clear_value source
  have shifted := ((Diagnostic.points_at_iff found "script.lsl").mp pointed).2
  exact absurd shifted (by decide +kernel)

end Lsl
