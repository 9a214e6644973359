import Lsl.Source
import Lsl.Token.Stream
import Mathlib.Data.List.DropRight
import Mathlib.Data.List.Infix

/-!
The pieces of a scan and the text between them. Every source is its tokens and lexical errors in
their order, with nothing but white space and whole comments around them, and every position
counts what stands in front of it. In a text of less than four gigabytes no count is cut off by
keeping it in 32 bits.
-/

set_option autoImplicit false

namespace Lsl

namespace Text

theorem byte_size_append (front back : List Char) :
    byteSize (front ++ back) = byteSize front + byteSize back := by
  induction front with
  | nil => simp [byteSize]
  | cons char front induction => simp [byteSize, induction, Nat.add_assoc]

theorem byte_size_eq (chars : List Char) :
    byteSize chars = (String.ofList chars).utf8ByteSize := by
  induction chars with
  | nil => rfl
  | cons char rest induction =>
      rw [← List.singleton_append, byte_size_append, String.ofList_append,
        String.utf8ByteSize_append, induction, ← String.singleton_eq_ofList,
        String.utf8ByteSize_singleton]
      rfl

theorem length_le_byte_size (chars : List Char) : chars.length ≤ byteSize chars := by
  induction chars with
  | nil => exact Nat.le_refl 0
  | cons char rest induction =>
      have := char.utf8Size_pos
      simp only [List.length_cons, byteSize]
      omega

end Text

/-- A position counts the bytes, the lines and the characters of the last line in front of it. -/
structure Position.Behind (place : Position) (front : List Char) : Prop where
  offset : place.offset = (String.ofList front).utf8ByteSize
  line : place.line = 1 + front.count '\n'
  column : place.column = (front.rtakeWhile (· ≠ '\n')).length

namespace Position.Behind

variable {place later : Position} {front text : List Char}

theorem origin : Position.origin.Behind [] := ⟨rfl, rfl, rfl⟩

theorem advance (behind : place.Behind front) (char : Char) :
    (place.advance char).Behind (front ++ [char]) := by
  have size : (String.ofList (front ++ [char])).utf8ByteSize =
      (String.ofList front).utf8ByteSize + char.utf8Size := by
    rw [String.ofList_append, String.utf8ByteSize_append, ← String.singleton_eq_ofList,
      String.utf8ByteSize_singleton]
  by_cases newline : char = '\n'
  · subst newline
    refine ⟨?_, ?_, ?_⟩
    · rw [size, ← behind.offset]
      rfl
    · simp [Position.advance, behind.line, Nat.add_assoc]
    · simp [Position.advance]
  · refine ⟨?_, ?_, ?_⟩
    · rw [size, ← behind.offset]
      simp [Position.advance, newline]
    · simp [Position.advance, newline, behind.line]
    · simp [Position.advance, newline, behind.column]

theorem advance_over (behind : place.Behind front) (text : List Char) :
    (place.advanceOver text).Behind (front ++ text) := by
  induction text generalizing place front with
  | nil => simpa using behind
  | cons char rest induction =>
      have further := induction (behind.advance char)
      rw [List.append_assoc, List.singleton_append] at further
      exact further

theorem offset_le (behind : place.Behind front) (further : later.Behind (front ++ text)) :
    place.offset ≤ later.offset := by
  rw [behind.offset, further.offset, String.ofList_append, String.utf8ByteSize_append]
  exact Nat.le_add_right _ _

theorem offset_lt (behind : place.Behind front) (further : later.Behind (front ++ text))
    (nonempty : text ≠ []) : place.offset < later.offset := by
  have size : (String.ofList text).utf8ByteSize ≠ 0 := by
    rw [ne_eq, String.utf8ByteSize_eq_zero_iff]
    simpa using nonempty
  rw [behind.offset, further.offset, String.ofList_append, String.utf8ByteSize_append]
  omega

/-- The counters of a text with fewer bytes than 32 bits can count are kept as they are. -/
theorem stored_position {chars : List Char} (behind : place.Behind front) (leads : front <+: chars)
    (small : Text.byteSize chars + 1 < UInt32.size) : place.stored.position = place := by
  have bytes : place.offset ≤ Text.byteSize chars := by
    obtain ⟨back, rfl⟩ := leads
    rw [behind.offset, ← Text.byte_size_eq, Text.byte_size_append]
    exact Nat.le_add_right _ _
  have short : front.length ≤ Text.byteSize chars :=
    leads.length_le.trans (Text.length_le_byte_size chars)
  have lines : place.line ≤ 1 + front.length := behind.line ▸ Nat.add_le_add_left List.count_le_length 1
  have columns : place.column ≤ front.length :=
    behind.column ▸ (List.rtakeWhile_suffix _ _).length_le
  have kept {number : Nat} (below : number < UInt32.size) : (UInt32.ofNat number).toNat = number :=
    UInt32.toNat_ofNat_of_lt' below
  unfold Position.stored StoredPosition.position
  rw [kept (by omega), kept (by omega), kept (by omega)]

end Position.Behind

/-- The span of a token or an error. -/
def Scanned.span : Scanned → Span
  | token found => found.span
  | fault error => error.span

/-- What a token says about itself is the text it stands on. An error may stand on any text. -/
def Scanned.Reads : Scanned → List Char → Prop
  | token found, text => found.kind ≠ .endOfFile ∧ found.text = String.ofList text
  | fault _, _ => True

/-- Text that a scan leaves out, in front of the text given last: white space, comments that run
to the end of their line and comments that run to their first end mark. -/
inductive Skipped : List Char → List Char → Prop
  | nil {behind : List Char} : Skipped [] behind
  | blank {char : Char} {rest behind : List Char} (blank : Text.isBlank char = true)
      (more : Skipped rest behind) : Skipped (char :: rest) behind
  | line {body rest behind : List Char} (within : '\n' ∉ body)
      (ends : ∀ char ∈ (rest ++ behind).head?, char = '\n')
      (more : Skipped rest behind) : Skipped ('/' :: '/' :: body ++ rest) behind
  | block {body rest behind : List Char} (within : ¬ ['*', '/'] <:+: body ++ ['*'])
      (more : Skipped rest behind) : Skipped ('/' :: '*' :: body ++ '*' :: '/' :: rest) behind

/-- The pieces of a text that stands behind another, one behind the other, with nothing but left
out text around them. Their ends are placed behind the text in front of them. -/
inductive Tiles (placed : Position → List Char → Prop) :
    List Char → List Char → List Scanned → Prop
  | done {front gap : List Char} (skipped : Skipped gap []) : Tiles placed front gap []
  | piece {front gap text rest : List Char} {piece : Scanned} {pieces : List Scanned}
      (skipped : Skipped gap (text ++ rest)) (nonempty : text ≠ [])
      (start : placed piece.span.start (front ++ gap))
      (stop : placed piece.span.stop (front ++ gap ++ text))
      (reads : piece.Reads text) (more : Tiles placed (front ++ gap ++ text) rest pieces) :
      Tiles placed front (gap ++ text ++ rest) (piece :: pieces)

theorem Skipped.append {first second behind : List Char} (front : Skipped first (second ++ behind))
    (back : Skipped second behind) : Skipped (first ++ second) behind := by
  generalize along : second ++ behind = all at front
  induction front with
  | nil => exact back
  | blank blank more induction => exact .blank blank (induction along)
  | line within ends more induction =>
      subst along
      rw [List.append_assoc]
      rw [← List.append_assoc] at ends
      exact .line within ends (induction rfl)
  | block within more induction =>
      rw [List.append_assoc]
      exact .block within (induction along)

theorem Tiles.behind_gap {placed : Position → List Char → Prop} {front gap rest : List Char}
    {pieces : List Scanned} (skipped : Skipped gap rest)
    (tiles : Tiles placed (front ++ gap) rest pieces) : Tiles placed front (gap ++ rest) pieces := by
  cases tiles with
  | done last => exact .done (.append (by simpa using skipped) last)
  | @piece _ next text rest piece pieces more nonempty start stop reads others =>
      rw [← List.append_assoc, ← List.append_assoc]
      rw [List.append_assoc front] at start stop others
      refine .piece (.append ?_ more) nonempty start stop reads others
      simpa using skipped

theorem Tiles.behind_piece {front text rest : List Char} {piece : Scanned} {pieces : List Scanned}
    {place : Position} (tiles : Tiles Position.Behind (front ++ text) rest pieces)
    (behind : place.Behind front) (nonempty : text ≠ [])
    (spans : piece.span = ⟨place, place.advanceOver text⟩) (reads : piece.Reads text) :
    Tiles Position.Behind front (text ++ rest) (piece :: pieces) := by
  have start : piece.span.start.Behind (front ++ []) := by simpa [spans] using behind
  have stop : piece.span.stop.Behind (front ++ [] ++ text) := by
    simpa [spans] using behind.advance_over text
  exact .piece .nil nonempty start stop reads (by simpa using tiles)

theorem SyntaxError.lexical_span (kind : SyntaxErrorKind) (text : String) (span : Span) :
    (lexical kind text span).span = span := by
  unfold lexical
  split <;> rfl

namespace Lexeme

theorem take_run (passes : Char → Bool) (chars : List Char) :
    chars.take (run passes chars) = chars.takeWhile passes :=
  (List.prefix_iff_eq_take.mp (List.takeWhile_prefix passes)).symm

theorem drop_run (passes : Char → Bool) (chars : List Char) :
    chars.drop (run passes chars) = chars.dropWhile passes := by
  have whole : chars.take (run passes chars) ++ chars.drop (run passes chars) =
      chars.takeWhile passes ++ chars.dropWhile passes := by
    rw [List.take_append_drop, List.takeWhile_append_dropWhile]
  rw [take_run] at whole
  exact List.append_cancel_left whole

theorem skipped_blanks (chars behind : List Char) :
    Skipped (chars.takeWhile Text.isBlank) behind := by
  induction chars with
  | nil => exact .nil
  | cons char rest induction =>
      rw [List.takeWhile_cons]
      split
      · exact .blank ‹_› induction
      · exact .nil

/-- A comment's rest runs to its first end mark. -/
theorem comment_rest_ends {chars : List Char} {length : Nat}
    (found : commentRest? chars = some length) :
    ∃ body, chars.take length = body ++ ['*', '/'] ∧ ¬ ['*', '/'] <:+: body ++ ['*'] := by
  induction chars using commentRest?.induct generalizing length with
  | case1 rest =>
      rw [commentRest?, Option.some.injEq] at found
      subst found
      exact ⟨[], rfl, by decide⟩
  | case2 char rest unlike induction =>
      rw [commentRest?, Option.map_eq_some_iff] at found
      · obtain ⟨others, more, rfl⟩ := found
        obtain ⟨body, split, within⟩ := induction more
        refine ⟨char :: body, by rw [List.take_succ_cons, split]; rfl, ?_⟩
        rw [List.cons_append, List.infix_cons_iff, not_or]
        refine ⟨?_, within⟩
        intro leads
        obtain ⟨star, next⟩ := List.cons_prefix_cons.mp leads
        have starts : ['/'] <+: rest := by
          refine List.IsPrefix.trans ?_ (List.take_prefix others rest)
          rw [split, List.append_cons]
          exact next.trans (List.prefix_append _ _)
        obtain ⟨tail, slash⟩ := starts
        exact unlike tail star.symm slash.symm
      · exact unlike
  | case3 => simp [commentRest?] at found

theorem word_kind_named (word : String) : wordKind word ≠ .endOfFile := by
  unfold wordKind
  split <;> decide

theorem pair_kind_named {first second : Char} {kind : TokenKind}
    (found : pairKind? first second = some kind) : kind ≠ .endOfFile := by
  unfold pairKind? at found
  split at found <;> cases found <;> decide

theorem single_kind_named {first : Char} {kind : TokenKind}
    (found : singleKind? first = some kind) : kind ≠ .endOfFile := by
  unfold singleKind? at found
  split at found <;> cases found <;> decide

/-- A piece has a character, and unless it is a token or an error it is left out. Only the closing
token has the kind of the end. -/
structure Measures (lexeme : Lexeme) (chars : List Char) : Prop where
  positive : 0 < lexeme.length
  named : lexeme.class_ ≠ .token .endOfFile
  skipped : lexeme.class_ = .blank →
    Skipped (chars.take lexeme.length) (chars.drop lexeme.length)

theorem measures_token {kind : TokenKind} {length : Nat} (named : kind ≠ .endOfFile)
    (positive : 0 < length) (chars : List Char) : Measures ⟨.token kind, length⟩ chars :=
  ⟨positive, by simpa using named, nofun⟩

theorem measures_fault (kind : SyntaxErrorKind) {length : Nat} (positive : 0 < length)
    (chars : List Char) : Measures ⟨.fault kind, length⟩ chars :=
  ⟨positive, nofun, nofun⟩

theorem mark_cases (first : Char) (rest : List Char) :
    (∃ second tail kind, rest = second :: tail ∧ pairKind? first second = some kind ∧
      mark first rest = ⟨.token kind, 2⟩) ∨
    (∃ kind, singleKind? first = some kind ∧ mark first rest = ⟨.token kind, 1⟩) ∨
    mark first rest = ⟨.fault .unrecognisedToken, 1⟩ := by
  have single : (∃ kind, singleKind? first = some kind ∧ mark first [] = ⟨.token kind, 1⟩) ∨
      mark first [] = ⟨.fault .unrecognisedToken, 1⟩ := by
    cases found : singleKind? first with
    | some kind => exact .inl ⟨kind, rfl, by simp [mark, found]⟩
    | none => exact .inr (by simp [mark, found])
  cases rest with
  | nil => exact .inr single
  | cons second tail =>
      cases found : pairKind? first second with
      | none =>
          have alone : mark first (second :: tail) = mark first [] := by simp [mark, found]
          exact .inr (alone ▸ single)
      | some kind => exact .inl ⟨second, tail, kind, rfl, found, by simp [mark, found]⟩

theorem mark_measures (first : Char) (rest chars : List Char) :
    (mark first rest).Measures chars := by
  rcases mark_cases first rest with ⟨_, _, kind, -, found, same⟩ | ⟨kind, found, same⟩ | same <;>
    rw [same]
  · exact measures_token (pair_kind_named found) Nat.two_pos chars
  · exact measures_token (single_kind_named found) Nat.one_pos chars
  · exact measures_fault _ Nat.one_pos chars

theorem float_measures (text chars : List Char) {mantissa : Nat} (positive : 0 < mantissa) :
    (floatOf text mantissa).Measures chars :=
  measures_token (by decide) (by omega) chars

theorem number_measures {first : Char} (rest chars : List Char) (digit : first.isDigit = true) :
    (number (first :: rest)).Measures chars := by
  have digits : 0 < run Char.isDigit (first :: rest) := by simp [run, digit]
  simp only [number]
  split
  · exact float_measures _ chars (by omega)
  · split
    · exact measures_token (by decide) digits chars
    · exact float_measures _ chars digits

theorem hex_measures {text : List Char} {lexeme : Lexeme} (chars : List Char)
    (found : hex? text = some lexeme) : lexeme.Measures chars := by
  unfold hex? at found
  split at found
  · split at found
    · cases found
      exact measures_token (by decide) (by omega) chars
    · cases found
  · cases found

theorem comment_measures {rest : List Char} {lexeme : Lexeme}
    (found : comment? rest = some lexeme) : lexeme.Measures ('/' :: rest) := by
  unfold comment? at found
  split at found
  next tail =>
    cases found
    refine ⟨Nat.lt_of_lt_of_le Nat.two_pos (Nat.le_add_right _ _), nofun, fun _ => ?_⟩
    rw [Nat.add_comm, List.take_succ_cons, List.take_succ_cons, List.drop_succ_cons,
      List.drop_succ_cons, take_run, drop_run]
    have within : '\n' ∉ tail.takeWhile (· != '\n') := by
      intro member
      simpa using List.mem_takeWhile_imp member
    have ends : ∀ char ∈ (tail.dropWhile (· != '\n')).head?, char = '\n' := by
      intro char leads
      have stops := List.head?_dropWhile_not (· != '\n') tail
      rw [leads] at stops
      simpa using stops
    have line : Skipped ('/' :: '/' :: tail.takeWhile (· != '\n') ++ [])
        (tail.dropWhile (· != '\n')) := .line within ends .nil
    simpa using line
  next tail =>
    split at found
    next length ended =>
      cases found
      refine ⟨Nat.lt_of_lt_of_le Nat.two_pos (Nat.le_add_right _ _), nofun, fun _ => ?_⟩
      obtain ⟨body, split, within⟩ := comment_rest_ends ended
      rw [Nat.add_comm, List.take_succ_cons, List.take_succ_cons, split]
      exact Skipped.block within .nil
    next =>
      cases found
      exact measures_fault _ (by omega) _
  next => cases found

theorem front_measures (first : Char) (rest : List Char) :
    (front first rest).Measures (first :: rest) := by
  unfold front
  split
  next blank =>
    refine ⟨Nat.lt_of_lt_of_le Nat.one_pos (Nat.le_add_right _ _), nofun, fun _ => ?_⟩
    rw [Nat.add_comm, List.take_succ_cons, take_run]
    exact .blank blank (skipped_blanks _ _)
  split
  next slash =>
    cases comment : comment? rest with
    | none => exact mark_measures first rest _
    | some lexeme =>
        rw [beq_iff_eq.mp slash]
        exact comment_measures comment
  split
  next digit =>
    cases hex : hex? (first :: rest) with
    | none => exact number_measures rest _ digit
    | some lexeme => exact hex_measures _ hex
  split
  · exact float_measures _ _ (by omega)
  split
  · split
    · exact measures_token (by decide) (by omega) _
    · exact measures_fault _ (by omega) _
  split
  · exact measures_token (word_kind_named _) (by omega) _
  · exact mark_measures first rest _

end Lexeme

/-- Characters that belong to the piece read last are passed over. -/
theorem scan_from_pending (place : Position) (pending : Nat) (chars : List Char) :
    scanFrom place pending chars =
      scanFrom (place.advanceOver (chars.take pending)) 0 (chars.drop pending) := by
  induction chars generalizing place pending with
  | nil => simp [scanFrom]
  | cons char rest induction =>
      cases pending with
      | zero => rfl
      | succ pending =>
          rw [scanFrom, induction]
          rfl

theorem scan_from_piece (place : Position) (char : Char) (rest : List Char) {lexeme : Lexeme}
    (front : Lexeme.front char rest = lexeme) :
    scanFrom place 0 (char :: rest) = lexeme.scanned ((char :: rest).take lexeme.length) place ++
      scanFrom (place.advanceOver ((char :: rest).take lexeme.length)) 0
        ((char :: rest).drop lexeme.length) := by
  obtain ⟨length, enough⟩ : ∃ length, lexeme.length = length + 1 :=
    Nat.exists_eq_add_one.mpr (front ▸ (Lexeme.front_measures char rest).positive)
  rw [scanFrom, front, scan_from_pending, enough, Nat.add_sub_cancel, List.take_succ_cons,
    List.drop_succ_cons, Position.advance_over_cons]

theorem scan_from_tiles {place : Position} {front : List Char} (chars : List Char)
    (behind : place.Behind front) :
    Tiles Position.Behind front chars (scanFrom place 0 chars) := by
  induction size : chars.length using Nat.strong_induction_on generalizing chars place front with
  | h size induction =>
      cases chars with
      | nil => exact .done .nil
      | cons char rest =>
          have measures := Lexeme.front_measures char rest
          generalize same : Lexeme.front char rest = lexeme at measures
          have nonempty : (char :: rest).take lexeme.length ≠ [] := by
            simpa [List.take_eq_nil_iff] using measures.positive.ne'
          have shorter : ((char :: rest).drop lexeme.length).length < (char :: rest).length := by
            have positive := measures.positive
            rw [List.length_drop, List.length_cons]
            omega
          have others := induction _ (size ▸ shorter) _
            (behind.advance_over ((char :: rest).take lexeme.length)) rfl
          rw [scan_from_piece place char rest same]
          suffices Tiles Position.Behind front
              ((char :: rest).take lexeme.length ++ (char :: rest).drop lexeme.length)
              (lexeme.scanned ((char :: rest).take lexeme.length) place ++
                scanFrom (place.advanceOver ((char :: rest).take lexeme.length)) 0
                  ((char :: rest).drop lexeme.length)) by
            rwa [List.take_append_drop] at this
          cases class_ : lexeme.class_ with
          | blank =>
              simp only [Lexeme.scanned, class_, List.nil_append]
              exact .behind_gap (measures.skipped class_) others
          | token kind =>
              have kept : kind ≠ .endOfFile := by simpa [class_] using measures.named
              simp only [Lexeme.scanned, class_, List.singleton_append]
              exact others.behind_piece behind nonempty rfl ⟨kept, rfl⟩
          | fault kind =>
              simp only [Lexeme.scanned, class_, List.singleton_append]
              exact others.behind_piece behind nonempty (SyntaxError.lexical_span kind _ _) trivial

namespace Tiles

variable {front chars : List Char} {pieces : List Scanned}

theorem imp {placed kept : Position → List Char → Prop} (tiles : Tiles placed front chars pieces)
    (follows : ∀ place before, before <+: front ++ chars → placed place before → kept place before) :
    Tiles kept front chars pieces := by
  induction tiles with
  | done skipped => exact .done skipped
  | @piece front gap text rest piece pieces skipped nonempty start stop reads more induction =>
      have whole : front ++ gap ++ text ++ rest = front ++ (gap ++ text ++ rest) := by simp
      rw [← whole] at follows
      refine .piece skipped nonempty (follows _ _ ?_ start) (follows _ _ ?_ stop) reads
        (induction follows)
      · exact ⟨text ++ rest, by simp⟩
      · exact ⟨rest, rfl⟩

theorem covered {placed : Position → List Char → Prop} (tiles : Tiles placed front chars pieces) :
    ∀ piece ∈ pieces, ∃ before text after, front ++ chars = before ++ text ++ after ∧ text ≠ [] ∧
      placed piece.span.start before ∧ placed piece.span.stop (before ++ text) ∧
        piece.Reads text := by
  induction tiles with
  | done => simp
  | @piece front gap text rest piece pieces skipped nonempty start stop reads more induction =>
      intro found member
      rcases List.mem_cons.mp member with rfl | member
      · exact ⟨front ++ gap, text, rest, by simp, nonempty, start, stop, reads⟩
      · obtain ⟨before, own, after, whole, others⟩ := induction found member
        exact ⟨before, own, after, by simpa using whole, others⟩

theorem bounded {place : Position} (tiles : Tiles Position.Behind front chars pieces)
    (behind : place.Behind front) : ∀ piece ∈ pieces, place.offset ≤ piece.span.start.offset := by
  induction tiles generalizing place with
  | done => simp
  | @piece front gap text rest piece pieces skipped nonempty start stop reads more induction =>
      intro found member
      have first := behind.offset_le start
      have own := start.offset_le stop
      rcases List.mem_cons.mp member with rfl | member
      · exact first
      · exact (first.trans own).trans (induction stop found member)

theorem ordered (tiles : Tiles Position.Behind front chars pieces) : pieces.Pairwise fun first second =>
    first.span.stop.offset ≤ second.span.start.offset := by
  induction tiles with
  | done => exact .nil
  | piece skipped nonempty start stop reads more induction =>
      exact .cons (more.bounded stop) induction

end Tiles

/-- The scan of a source tiles it: the tokens and lexical errors stand one behind the other on text
of the source, each token keeps the text it stands on, only white space and whole comments are
between them, and the closing token is at the end. The positions that they keep count bytes, lines
and columns of the text in front of them, if 32 bits are enough to count the source. -/
theorem scan_tiles_source (source : String) :
    ∃ finish : Position,
      tokenize source = (scan source).filterMap Scanned.token? ++ [.closing finish] ∧
      lexicalErrors source = (scan source).filterMap Scanned.fault? ∧
      Tiles (fun _ _ => True) [] source.toList (scan source) ∧
      (source.utf8ByteSize + 1 < UInt32.size →
        finish.stored.position.Behind source.toList ∧
        (∀ piece ∈ scan source,
          piece.span.stored.start.offset < piece.span.stored.stop.offset) ∧
        (scan source).Pairwise (fun first second =>
          first.span.stored.stop.offset ≤ second.span.stored.start.offset) ∧
        (∀ piece ∈ scan source, ∃ front text back, source.toList = front ++ text ++ back ∧
          piece.span.stored.start.position.Behind front ∧
          piece.span.stored.stop.position.Behind (front ++ text) ∧ piece.Reads text) ∧
        Tiles (fun place => place.stored.position.Behind) [] source.toList (scan source)) := by
  have tiles := scan_from_tiles source.toList .origin
  have finish := Position.Behind.origin.advance_over source.toList
  refine ⟨_, rfl, rfl, tiles.imp fun _ _ _ _ => trivial, fun small => ?_⟩
  have size : Text.byteSize source.toList = source.utf8ByteSize := by
    rw [Text.byte_size_eq, String.ofList_toList]
  rw [← size] at small
  have counts {place : Position} {front : List Char} (leads : front <+: source.toList)
      (behind : place.Behind front) : place.stored.position = place :=
    behind.stored_position leads small
  have kept : Tiles (fun place => place.stored.position.Behind) [] source.toList (scan source) :=
    tiles.imp fun place front leads behind => (counts leads behind).symm ▸ behind
  have ends : ∀ piece ∈ scan source, piece.span.stored.start.position = piece.span.start ∧
      piece.span.stored.stop.position = piece.span.stop := by
    intro piece member
    obtain ⟨before, text, after, whole, _, start, stop, _⟩ := tiles.covered piece member
    rw [List.nil_append, List.append_assoc] at whole
    exact ⟨counts ⟨_, whole.symm⟩ start, counts ⟨after, by rw [whole, List.append_assoc]⟩ stop⟩
  refine ⟨(counts (List.prefix_refl _) finish).symm ▸ finish, ?_, ?_, ?_, kept⟩
  · intro piece member
    obtain ⟨before, text, after, whole, nonempty, start, stop, _⟩ := kept.covered piece member
    exact UInt32.lt_iff_toNat_lt.mpr (start.offset_lt stop nonempty)
  · refine tiles.ordered.imp_of_mem fun {first second} one other before => ?_
    have early : first.span.stored.stop.position.offset ≤ second.span.stored.start.position.offset := by
      rw [(ends first one).2, (ends second other).1]
      exact before
    exact UInt32.le_iff_toNat_le.mpr early
  · intro piece member
    obtain ⟨before, text, after, whole, nonempty, others⟩ := kept.covered piece member
    exact ⟨before, text, after, whole, others⟩

/-- The numbers that the tokens of a script of one line keep. -/
theorem short_source_tiled : "x".utf8ByteSize + 1 < UInt32.size ∧
    ∀ piece ∈ scan "x", piece.span.stored.start.offset < piece.span.stored.stop.offset := by
  have small : "x".utf8ByteSize + 1 < UInt32.size := by decide
  obtain ⟨_, _, _, _, numbers⟩ := scan_tiles_source "x"
  exact ⟨small, (numbers small).2.1⟩

end Lsl
