import Lsl.Diagnostic.Excerpt
import Lsl.Proofs.Checking.Boundaries

/-!
Two counts of lines. A position is counted while the source is read, character by character; a
diagnostic is shown in a line that is found by splitting the source again. Wherever a token, an error
or a diagnostic stands, both counts come to the same line and the same place in it.
-/

set_option autoImplicit false

namespace Lsl

namespace Text

theorem byte_size_pos {chars : List Char} (nonempty : chars ≠ []) : 0 < byteSize chars := by
  cases chars with
  | nil => exact absurd rfl nonempty
  | cons char rest => exact Nat.add_pos_left char.utf8Size_pos _

theorem prefix_of_byte_size_le {first second chars : List Char} (front : first <+: chars)
    (other : second <+: chars) (shorter : byteSize first ≤ byteSize second) :
    first <+: second := by
  rcases List.prefix_or_prefix_of_prefix front other with within | ⟨more, rfl⟩
  · exact within
  · rw [byte_size_append] at shorter
    by_cases none : more = []
    · simp [none]
    · have := byte_size_pos none
      omega

/-- The characters of a text that start in front of an offset. -/
def upTo : Nat → List Char → List Char
  | _, [] => []
  | offset, char :: rest =>
    if offset = 0 then [] else char :: upTo (offset - char.utf8Size) rest

theorem up_to_zero (chars : List Char) : upTo 0 chars = [] := by
  cases chars <;> rfl

theorem up_to_append (front back : List Char) (offset : Nat) :
    upTo (byteSize front + offset) (front ++ back) = front ++ upTo offset back := by
  induction front with
  | nil => simp [byteSize]
  | cons char front induction =>
      have started : byteSize (char :: front) + offset ≠ 0 := by
        have := byte_size_pos (List.cons_ne_nil char front)
        omega
      have further : byteSize (char :: front) + offset - char.utf8Size =
          byteSize front + offset := by
        simp only [byteSize]
        omega
      rw [List.cons_append, upTo, if_neg started, further, induction, List.cons_append]

theorem up_to_byte_size (front back : List Char) :
    upTo (byteSize front) (front ++ back) = front := by
  simpa [up_to_zero] using up_to_append front back 0

/-- In front of an offset that is not behind a text nothing starts but what is in the text. -/
theorem up_to_leads {front : List Char} {offset : Nat} (within : offset ≤ byteSize front)
    (back : List Char) : upTo offset (front ++ back) <+: front := by
  induction front generalizing offset with
  | nil =>
      obtain rfl := Nat.le_zero.mp within
      simp [up_to_zero]
  | cons char front induction =>
      rw [List.cons_append, upTo]
      split
      · exact List.nil_prefix
      · refine List.cons_prefix_cons.mpr ⟨rfl, induction ?_⟩
        simp only [byteSize] at within
        omega

/-- A line of a text, with what is before it and what is after it. Only the last line may have no
newline. -/
structure IsLine (before line after : List Char) : Prop where
  starts : before = [] ∨ before.getLast? = some '\n'
  runs : ∃ body, '\n' ∉ body ∧ (line = body ++ ['\n'] ∨ line = body ∧ after = [])

theorem lines_ended {body : List Char} (within : '\n' ∉ body) (rest : List Char) :
    lines (body ++ '\n' :: rest) = (body ++ ['\n']) :: lines rest := by
  induction body with
  | nil => simp [lines]
  | cons char body induction =>
      rw [List.mem_cons, not_or] at within
      rw [List.cons_append, lines, if_neg (Ne.symm within.1), induction within.2]
      rfl

theorem lines_last {body : List Char} (within : '\n' ∉ body) (nonempty : body ≠ []) :
    lines body = [body] := by
  induction body with
  | nil => exact absurd rfl nonempty
  | cons char body induction =>
      rw [List.mem_cons, not_or] at within
      rw [lines, if_neg (Ne.symm within.1)]
      cases body with
      | nil => rfl
      | cons next body => rw [induction within.2 (List.cons_ne_nil _ _)]

theorem line_induction {holds : List Char → Prop} (last : ∀ body, '\n' ∉ body → holds body)
    (ended : ∀ body rest, '\n' ∉ body → holds rest → holds (body ++ '\n' :: rest))
    (chars : List Char) : holds chars := by
  induction size : chars.length using Nat.strong_induction_on generalizing chars with
  | h size induction =>
      by_cases member : '\n' ∈ chars
      · obtain ⟨body, rest, rfl, within⟩ := List.eq_append_cons_of_mem member
        refine ended body rest within (induction rest.length ?_ rest rfl)
        simp only [List.length_append, List.length_cons] at size
        omega
      · exact last chars member

end Text

namespace LinePlace

open Text

/-- The place of an offset in a text whose first line has the number. No newline is in front of the
place in its line, so the place behind a newline is the start of the next line. -/
def Locates (number : Nat) (chars : List Char) (offset : Nat) (place : LinePlace) : Prop :=
  ∃ before after, chars = before ++ place.text ++ after ∧ IsLine before place.text after ∧
    place.number = number + before.count '\n' ∧ offset = byteSize before + place.offset ∧
      '\n' ∉ upTo place.offset (place.text ++ after)

theorem locates_last {body : List Char} (within : '\n' ∉ body) {number offset : Nat}
    (reached : offset ≤ byteSize body) : Locates number body offset ⟨number, body, offset⟩ := by
  refine ⟨[], [], by simp, ⟨.inl rfl, body, within, .inr ⟨rfl, rfl⟩⟩, rfl, ?_, ?_⟩
  · simp [byteSize]
  · exact fun member => within ((up_to_leads reached []).subset member)

theorem locates_ended {body : List Char} (within : '\n' ∉ body) {number offset : Nat}
    (reached : offset ≤ byteSize body) (rest : List Char) :
    Locates number (body ++ '\n' :: rest) offset ⟨number, body ++ ['\n'], offset⟩ := by
  refine ⟨[], rest, by simp, ⟨.inl rfl, body, within, .inl rfl⟩, rfl, ?_, ?_⟩
  · simp [byteSize]
  · rw [List.append_assoc]
    exact fun member => within ((up_to_leads reached _).subset member)

theorem Locates.behind_line {body rest : List Char} {number offset : Nat} {place : LinePlace}
    (within : '\n' ∉ body) (locates : Locates (number + 1) rest offset place) :
    Locates number (body ++ '\n' :: rest) (byteSize (body ++ ['\n']) + offset) place := by
  obtain ⟨before, after, rfl, line, counted, reached, inside⟩ := locates
  refine ⟨body ++ ['\n'] ++ before, after, by simp, ⟨.inr ?_, line.runs⟩, ?_, ?_, inside⟩
  · rcases line.starts with rfl | ended
    · simp
    · rw [List.getLast?_append, ended]
      rfl
  · simp only [List.count_append, List.count_eq_zero_of_not_mem within, List.count_singleton_self]
    omega
  · rw [byte_size_append (body ++ _), reached, Nat.add_assoc]

theorem among_lines (number offset : Nat) (chars : List Char) :
    (offset ≤ byteSize chars → ∃ place, among number offset (lines chars) = some place ∧
      Locates number chars offset place) ∧
    (byteSize chars < offset → among number offset (lines chars) = none) := by
  induction chars using line_induction generalizing number offset with
  | last body within =>
      by_cases empty : body = []
      · subst empty
        refine ⟨fun reached => ?_, fun past => ?_⟩
        · obtain rfl := Nat.le_zero.mp reached
          exact ⟨_, rfl, locates_last within reached⟩
        · exact if_neg (Nat.pos_iff_ne_zero.mp past)
      · have unended : body.getLast? ≠ some '\n' :=
          fun last => within (List.mem_of_getLast? last)
        rw [lines_last within empty, among]
        refine ⟨fun reached => ⟨_, ?_, locates_last within reached⟩, fun past => ?_⟩
        · split
          · rfl
          · rw [if_pos ⟨rfl, by omega, unended⟩]
        · rw [if_neg (by omega), if_neg (by omega), among, if_neg (by omega)]
  | ended body rest within induction =>
      have whole : byteSize (body ++ '\n' :: rest) = byteSize (body ++ ['\n']) + byteSize rest := by
        rw [List.append_cons, byte_size_append]
      have ended : byteSize (body ++ ['\n']) = byteSize body + 1 := byte_size_append body ['\n']
      rw [lines_ended within, among]
      by_cases inside : offset < byteSize (body ++ ['\n'])
      · rw [if_pos inside]
        refine ⟨fun _ => ⟨_, rfl, locates_ended within (by omega) rest⟩, fun past => ?_⟩
        omega
      · have further := induction (number + 1) (offset - byteSize (body ++ ['\n']))
        rw [if_neg inside, if_neg (by simp)]
        refine ⟨fun reached => ?_, fun past => further.2 (by omega)⟩
        obtain ⟨place, found, locates⟩ := further.1 (by omega)
        refine ⟨place, found, ?_⟩
        have behind := locates.behind_line within
        rwa [Nat.add_sub_cancel' (Nat.not_lt.mp inside)] at behind

theorem columns_of_line {before line after : List Char} (started : IsLine before line after)
    {inside : List Char} (within : '\n' ∉ inside) :
    (before ++ inside).rtakeWhile (· ≠ '\n') = inside := by
  have plain : ∀ char ∈ inside.reverse, decide (char ≠ '\n') = true := by
    intro char member
    simpa using ne_of_mem_of_not_mem (List.mem_reverse.mp member) within
  have stopped : before.reverse.takeWhile (fun char => decide (char ≠ '\n')) = [] := by
    rcases started.starts with rfl | ended
    · rfl
    · rw [List.getLast?_eq_head?_reverse] at ended
      obtain ⟨others, first⟩ := List.head?_eq_some_iff.mp ended
      simp [first]
  rw [List.rtakeWhile, List.reverse_append, List.takeWhile_append_of_pos plain, stopped,
    List.append_nil, List.reverse_reverse]

theorem find_behind {source : String} {position : Position} {front : List Char}
    (leads : front <+: source.toList) (behind : position.Behind front) :
    ∃ before inside rest after, source.toList = before ++ (inside ++ rest) ++ after ∧
      IsLine before (inside ++ rest) after ∧ front = before ++ inside ∧
        inside.length = position.column ∧
          find? source position.offset = some ⟨position.line, inside ++ rest, byteSize inside⟩ := by
  have size : position.offset = byteSize front := by rw [behind.offset, byte_size_eq]
  obtain ⟨back, whole⟩ := leads
  have reached : position.offset ≤ byteSize source.toList := by
    rw [← whole, byte_size_append, size]
    exact Nat.le_add_right _ _
  obtain ⟨⟨number, text, offset⟩, found, before, after, split, line, counted, placed, unbroken⟩ :=
    (among_lines 1 position.offset source.toList).1 reached
  dsimp only at split line counted placed unbroken
  obtain ⟨inside, rfl⟩ : before <+: front := by
    refine prefix_of_byte_size_le ⟨text ++ after, ?_⟩ ⟨back, whole⟩ (by omega)
    rw [split, List.append_assoc]
  have along : text ++ after = inside ++ back := by
    rw [split, List.append_assoc, List.append_assoc] at whole
    exact (List.append_cancel_left whole).symm
  have own : offset = byteSize inside := by
    rw [byte_size_append] at size
    omega
  rw [along, own, up_to_byte_size] at unbroken
  obtain ⟨rest, rfl⟩ : inside <+: text := by
    obtain ⟨body, within, rfl | ⟨rfl, rfl⟩⟩ := line.runs
    · rcases List.prefix_or_prefix_of_prefix ⟨back, along.symm⟩ ⟨after, rfl⟩ with inner | outer
      · exact inner
      · exact absurd (outer.subset (by simp)) unbroken
    · exact ⟨back, by simpa using along.symm⟩
  refine ⟨before, inside, rest, after, split, line, rfl, ?_, ?_⟩
  · rw [behind.column, columns_of_line line unbroken]
  · rw [find?, found, behind.line, counted, own, List.count_append,
      List.count_eq_zero_of_not_mem unbroken, Nat.add_zero]

end LinePlace

/-- The positions that the tokens of a source, its errors and its diagnostics keep. -/
def storedPlaces (library : Library) (source : String) : List StoredPosition :=
  ((tokenize source).map (·.span) ++ (syntaxErrors source).map (·.span) ++
    (checkSource library source).reports.map (·.span)).flatMap fun span =>
      [span.stored.start, span.stored.stop]

theorem stored_place_boundary {library : Library} {source : String} {place : StoredPosition}
    (member : place ∈ storedPlaces library source) :
    ∃ counted ∈ boundaries source, place = counted.stored := by
  obtain ⟨span, kept, ends⟩ := List.mem_flatMap.mp member
  have genuine : span.Genuine (boundaries source) := by
    rcases List.mem_append.mp kept with kept | kept
    · rcases List.mem_append.mp kept with kept | kept
      · obtain ⟨token, inside, rfl⟩ := List.mem_map.mp kept
        exact token_genuine source inside
      · obtain ⟨error, inside, rfl⟩ := List.mem_map.mp kept
        exact syntax_errors_genuine source inside
    · obtain ⟨report, inside, rfl⟩ := List.mem_map.mp kept
      exact reports_genuine source library inside
  rcases List.mem_cons.mp ends with rfl | ends
  · exact ⟨span.start, genuine.start, rfl⟩
  · exact ⟨span.stop, genuine.stop, List.mem_singleton.mp ends⟩

/-- The line of an offset of 32 bits is found for every offset up to the end of the source and for no
other. Its number is one more than the newlines in front of the offset, its text is the line with its
newline, and the offset in it is the distance from where it starts. At the positions that tokens,
errors and diagnostics keep this is the line they count, and the characters in front are their
columns, if 32 bits are enough to count the source. -/
theorem line_counters_agree (library : Library) (source : String) :
    (∀ offset : UInt32, LinePlace.find? source offset.toNat = none ↔
      source.utf8ByteSize < offset.toNat) ∧
    (∀ (offset : UInt32) (found : LinePlace), LinePlace.find? source offset.toNat = some found →
      ∃ before after, source.toList = before ++ found.text ++ after ∧
        Text.IsLine before found.text after ∧
          offset.toNat = Text.byteSize before + found.offset ∧
            before.count '\n' = (Text.upTo offset.toNat source.toList).count '\n' ∧
              found.number = 1 + (Text.upTo offset.toNat source.toList).count '\n') ∧
    (source.utf8ByteSize + 1 < UInt32.size → ∀ place ∈ storedPlaces library source, ∃ found,
      LinePlace.find? source place.offset.toNat = some found ∧ found.number = place.line.toNat ∧
        (Text.upTo found.offset found.text).length = place.column.toNat) := by
  have size : source.utf8ByteSize = Text.byteSize source.toList := by
    rw [Text.byte_size_eq, String.ofList_toList]
  have located (offset : Nat) := LinePlace.among_lines 1 offset source.toList
  refine ⟨fun offset => ⟨fun none => ?_, fun past => (located _).2 (size ▸ past)⟩, ?_, ?_⟩
  · by_contra within
    obtain ⟨place, found, _⟩ := (located offset.toNat).1 (by omega)
    rw [LinePlace.find?, found] at none
    cases none
  · intro offset found same
    have reached : offset.toNat ≤ Text.byteSize source.toList := by
      by_contra past
      rw [LinePlace.find?, (located _).2 (by omega)] at same
      cases same
    obtain ⟨place, again, before, after, split, line, counted, placed, unbroken⟩ :=
      (located offset.toNat).1 reached
    obtain rfl : place = found := Option.some.inj (again.symm.trans same)
    have inFront : (Text.upTo offset.toNat source.toList).count '\n' = before.count '\n' := by
      rw [placed, split, List.append_assoc, Text.up_to_append, List.count_append,
        List.count_eq_zero_of_not_mem unbroken, Nat.add_zero]
    exact ⟨before, after, split, line, placed, inFront.symm, inFront ▸ counted⟩
  · intro small place member
    obtain ⟨counted, boundary, rfl⟩ := stored_place_boundary member
    obtain ⟨front, leads, behind⟩ := boundary_behind source boundary
    have kept : counted.stored.position = counted := behind.stored_position leads (size ▸ small)
    obtain ⟨before, inside, rest, after, split, line, rfl, column, found⟩ :=
      LinePlace.find_behind leads behind
    rw [← kept] at found column
    exact ⟨_, found, rfl, by rw [Text.up_to_byte_size, column]; rfl⟩

end Lsl
