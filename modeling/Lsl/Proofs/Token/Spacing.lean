import Lsl.Proofs.Token.Reach

/-!
Tokens and the text between them. A source without lexical errors is its tokens with gaps around
them, and other gaps give the same tokens: a gap between two tokens may be any white space and any
comments, as long as something stays where something was and no comment is put directly behind a
slash.
-/

set_option autoImplicit false

namespace Lsl

/-! ### Gaps are passed over -/

namespace Lexeme

theorem front_blank {first : Char} (rest : List Char) (blank : Text.isBlank first = true) :
    front first rest = ⟨.blank, 1 + run Text.isBlank rest⟩ := if_pos blank

theorem front_line (rest : List Char) :
    front '/' ('/' :: rest) = ⟨.blank, 2 + run (· != '\n') rest⟩ := rfl

theorem front_block {rest : List Char} {length : Nat} (found : commentRest? rest = some length) :
    front '/' ('*' :: rest) = ⟨.blank, 2 + length⟩ := by
  have comment : front '/' ('*' :: rest) =
    (comment? ('*' :: rest)).getD (mark '/' ('*' :: rest)) := rfl
  simp [comment, comment?, found]

theorem comment_rest_found {body : List Char} (rest : List Char)
    (within : ¬ ['*', '/'] <:+: body ++ ['*']) :
    commentRest? (body ++ '*' :: '/' :: rest) = some (body.length + 2) := by
  induction body with
  | nil => rfl
  | cons char body induction =>
      rw [List.cons_append, List.infix_cons_iff, not_or] at within
      have later := induction within.2
      rw [List.cons_append, commentRest?, later]
      · rfl
      · rintro tail rfl same
        refine within.1 ?_
        cases body with
        | nil => cases same
        | cons next body =>
            cases same
            simp

end Lexeme

theorem scan_from_blank (place : Position) {char : Char} (rest : List Char)
    (blank : Text.isBlank char = true) :
    scanFrom place 0 (char :: rest) = scanFrom (place.advance char) 0 rest := by
  rw [scanFrom, Lexeme.front_blank rest blank]
  cases rest with
  | nil => rfl
  | cons next rest =>
      simp only [Lexeme.scanned, List.nil_append, Nat.add_sub_cancel_left, Lexeme.run_cons]
      split
      next blank =>
        rw [scanFrom, scanFrom, Lexeme.front_blank rest blank]
        simp only [Lexeme.scanned, List.nil_append, Nat.add_sub_cancel_left]
      next => rfl

theorem scan_from_text (place : Position) {first : Char} {text back : List Char} {lexeme : Lexeme}
    (front : Lexeme.front first (text ++ back) = lexeme) (size : lexeme.length = text.length + 1) :
    scanFrom place 0 (first :: text ++ back) = lexeme.scanned (first :: text) place ++
      scanFrom (place.advanceOver (first :: text)) 0 back := by
  have piece := scan_from_piece place first (text ++ back) front
  rwa [size, List.take_succ_cons, List.drop_succ_cons, List.take_left, List.drop_left] at piece

theorem Skipped.passed {gap behind : List Char} (skipped : Skipped gap behind) (place : Position) :
    scanFrom place 0 (gap ++ behind) = scanFrom (place.advanceOver gap) 0 behind := by
  induction skipped generalizing place with
  | nil => rfl
  | blank blank more induction =>
      rw [List.cons_append, scan_from_blank place _ blank, induction, Position.advance_over_cons]
  | @line body rest behind within ends more induction =>
      have inside : ∀ char ∈ body, (char != '\n') = true := by
        rintro char member
        rw [bne_iff_ne]
        rintro rfl
        exact within member
      have stops : ∀ char ∈ (rest ++ behind).head?, (char != '\n') = false := by
        intro char leads
        simpa using ends char leads
      have line : Lexeme.run (· != '\n') (body ++ (rest ++ behind)) = body.length := by
        rw [Lexeme.run, (Text.take_word inside stops).1]
      have front : Lexeme.front '/' ('/' :: body ++ (rest ++ behind)) =
          ⟨.blank, 2 + body.length⟩ := by
        rw [List.cons_append, Lexeme.front_line, line]
      have passed := scan_from_text place front (by simp; omega)
      rw [Position.advance_over_append, ← induction, List.append_assoc]
      exact passed
  | @block body rest behind within more induction =>
      have front : Lexeme.front '/' ('*' :: (body ++ ['*', '/']) ++ (rest ++ behind)) =
          ⟨.blank, 2 + (body.length + 2)⟩ := by
        rw [List.cons_append, List.append_assoc]
        exact Lexeme.front_block (Lexeme.comment_rest_found _ within)
      have passed := scan_from_text place front (by simp; omega)
      have split : '/' :: '*' :: body ++ '*' :: '/' :: rest =
          '/' :: '*' :: (body ++ ['*', '/']) ++ rest := by simp
      rw [split, Position.advance_over_append, ← induction, List.append_assoc]
      exact passed

theorem Skipped.ends {gap behind : List Char} (skipped : Skipped gap behind) (nonempty : gap ≠ [])
    (rest : List Char) : Lexeme.Ends (gap ++ rest) := by
  intro char leads
  cases skipped with
  | nil => exact absurd rfl nonempty
  | blank blank more =>
      cases leads
      exact .inl blank
  | line | block =>
      cases leads
      exact .inr rfl

/-! ### Words and gaps -/

/-- Words in their order, with left out text in front of each and behind the last. Nothing that
begins with a slash stands directly behind a word that is a slash: the two would begin a comment. -/
inductive Spaced : List String → List (List Char) → List Char → Prop
  | last {gap : List Char} (skipped : Skipped gap []) : Spaced [] [gap] gap
  | word {gap rest : List Char} {word : String} {words : List String} {gaps : List (List Char)}
      (skipped : Skipped gap (word.toList ++ rest)) (apart : word = "/" → rest.head? ≠ some '/')
      (more : Spaced words gaps rest) :
      Spaced (word :: words) (gap :: gaps) (gap ++ (word.toList ++ rest))

inductive Lexed : List (TokenKind × String) → List (List Char) → List Char → Prop
  | last {gap : List Char} (skipped : Skipped gap []) : Lexed [] [gap] gap
  | token {gap text rest : List Char} {first : Char} {kind : TokenKind} {word : String}
      {readings : List (TokenKind × String)} {gaps : List (List Char)}
      (skipped : Skipped gap (word.toList ++ rest)) (chars : word.toList = first :: text)
      (front : Lexeme.front first (text ++ rest) = ⟨.token kind, text.length + 1⟩)
      (more : Lexed readings gaps rest) :
      Lexed ((kind, word) :: readings) (gap :: gaps) (gap ++ (word.toList ++ rest))

/-- Words with something between them still have something between them. -/
def KeepsApart (gaps others : List (List Char)) : Prop :=
  ∀ place, 0 < place → place + 1 < others.length → others[place]? = some [] →
    gaps[place]? = some []

def Token.reading (token : Token) : TokenKind × String := (token.kind, token.text)

/-- Two texts with the same words begin with the same characters, and what is behind these ends
them in the one that keeps the words apart. -/
theorem Spaced.common_front {words : List String} {gaps others : List (List Char)}
    {chars text : List Char} (spaced : Spaced words gaps chars) (also : Spaced words others text)
    (kept : ∀ place, place + 1 < others.length → others[place]? = some [] →
      gaps[place]? = some []) :
    ∃ front back other, chars = front ++ back ∧ text = front ++ other ∧ Lexeme.Ends other := by
  induction also generalizing gaps chars with
  | @last gap skipped =>
      refine ⟨[], chars, gap, rfl, rfl, ?_⟩
      by_cases nonempty : gap = []
      · subst nonempty
        exact nofun
      · simpa using skipped.ends nonempty []
  | @word other rest word words others skipped apart more induction =>
      by_cases nonempty : other = []
      · subst nonempty
        cases spaced with
        | @word gap rest word words gaps skipped apart spaced =>
            have several : 0 < others.length := by cases more <;> simp
            have empty := kept 0 (by simpa using several) rfl
            obtain rfl : gap = [] := by simpa using empty
            obtain ⟨front, back, other, whole, same, ends⟩ := induction spaced fun place inside =>
              kept (place + 1) (by simpa using inside)
            exact ⟨word.toList ++ front, back, other, by simp [whole], by simp [same], ends⟩
      · exact ⟨[], chars, _, rfl, rfl, skipped.ends nonempty _⟩

namespace Lexed

variable {readings : List (TokenKind × String)} {gaps others : List (List Char)}
  {chars text : List Char}

theorem spaced (lexed : Lexed readings gaps chars) :
    Spaced (readings.map Prod.snd) gaps chars := by
  induction lexed with
  | last skipped => exact .last skipped
  | @token gap text rest first kind word readings gaps skipped chars front more induction =>
      refine .word skipped ?_ induction
      rintro rfl slash
      obtain ⟨rfl, rfl⟩ : first = '/' ∧ text = [] := by simpa using chars.symm
      obtain ⟨tail, rfl⟩ := List.head?_eq_some_iff.mp slash
      cases front

/-- Other gaps around the same words leave them the tokens that they are. -/
theorem respaced (lexed : Lexed readings gaps chars)
    (spaced : Spaced (readings.map Prod.snd) others text) (kept : KeepsApart gaps others) :
    Lexed readings others text := by
  induction lexed generalizing others text with
  | last skipped =>
      cases spaced with
      | last skipped => exact .last skipped
  | @token gap inner rest first kind word readings gaps _ chars front more induction =>
      cases spaced with
      | @word other behind _ _ others skipped apart spaced =>
          have kept (place : Nat) (inside : place + 1 < others.length) :
              others[place]? = some [] → gaps[place]? = some [] :=
            kept (place + 1) (Nat.succ_pos place) (by simpa using inside)
          refine .token skipped chars ?_ (induction spaced fun place _ => kept place)
          obtain ⟨common, back, other, whole, same, ends⟩ := more.spaced.common_front spaced kept
          subst whole same
          rw [← List.append_assoc] at front ⊢
          refine Lexeme.front_reach front (by simp) ends fun slash alone => ?_
          obtain ⟨rfl, rfl⟩ := List.append_eq_nil_iff.mp alone
          refine apart ?_
          rw [← String.toList_inj, chars, slash]
          rfl

theorem scanned (lexed : Lexed readings gaps chars) (place : Position) :
    ∃ tokens : List Token, scanFrom place 0 chars = tokens.map .token ∧
      tokens.map Token.reading = readings := by
  induction lexed generalizing place with
  | last skipped =>
      refine ⟨[], ?_, rfl⟩
      simpa [scanFrom] using skipped.passed place
  | @token gap inner rest first kind word readings gaps skipped chars front more induction =>
      let start := place.advanceOver gap
      obtain ⟨tokens, found, same⟩ := induction (start.advanceOver (first :: inner))
      refine ⟨⟨kind, word, start, start.advanceOver word.toList⟩ :: tokens, ?_, ?_⟩
      · rw [skipped.passed, chars, scan_from_text _ front rfl, found, ← chars]
        simp only [Lexeme.scanned, String.ofList_toList, List.singleton_append, List.map_cons, start]
      · rw [List.map_cons, same]
        rfl

theorem behind_gap {gap : List Char} (skipped : Skipped gap chars)
    (lexed : Lexed readings gaps chars) : ∃ gaps, Lexed readings gaps (gap ++ chars) := by
  cases lexed with
  | last last => exact ⟨_, .last (.append (by simpa using skipped) last)⟩
  | @token next _ rest _ _ word _ gaps more chars front others =>
      rw [← List.append_assoc]
      exact ⟨_, .token (.append skipped more) chars front others⟩

end Lexed

theorem scan_from_lexed (place : Position) (chars : List Char)
    (clean : (scanFrom place 0 chars).filterMap Scanned.fault? = []) :
    ∃ gaps, Lexed (((scanFrom place 0 chars).filterMap Scanned.token?).map Token.reading) gaps
      chars := by
  induction size : chars.length using Nat.strong_induction_on generalizing chars place with
  | h size induction =>
      cases chars with
      | nil => exact ⟨_, .last .nil⟩
      | cons char rest =>
          have measures := Lexeme.front_measures char rest
          have within := Lexeme.front_within char rest
          generalize same : Lexeme.front char rest = lexeme at measures within
          obtain ⟨text, back, rfl, enough⟩ :
              ∃ text back, rest = text ++ back ∧ lexeme.length = text.length + 1 := by
            have positive := measures.positive
            refine ⟨rest.take (lexeme.length - 1), rest.drop (lexeme.length - 1), ?_, ?_⟩
            · rw [List.take_append_drop]
            · rw [List.length_take]
              omega
          have shorter : back.length < (char :: (text ++ back)).length := by
            rw [List.length_cons, List.length_append]
            omega
          have own := scan_from_text place same enough
          rw [← List.cons_append, own, List.filterMap_append] at clean ⊢
          obtain ⟨faultless, others⟩ := List.append_eq_nil_iff.mp clean
          obtain ⟨gaps, lexed⟩ := induction _ (size ▸ shorter) _ back others rfl
          cases class_ : lexeme.class_ with
          | fault kind => simp [Lexeme.scanned, class_, Scanned.fault?] at faultless
          | blank =>
              have gap := measures.skipped class_
              rw [enough, List.take_succ_cons, List.drop_succ_cons, List.take_left,
                List.drop_left] at gap
              simp only [Lexeme.scanned, class_, List.filterMap_nil, List.nil_append]
              exact lexed.behind_gap gap
          | token kind =>
              have front : Lexeme.front char (text ++ back) = ⟨.token kind, text.length + 1⟩ := by
                rw [same, ← enough, ← class_]
              have word := Lexed.token .nil (String.toList_ofList (l := char :: text)) front lexed
              rw [List.nil_append, String.toList_ofList] at word
              simp only [Lexeme.scanned, class_]
              exact ⟨_, word⟩

/-! ### The tokens of a source -/

def tokenTexts (source : String) : List String :=
  ((tokenize source).filter (·.kind ≠ .endOfFile)).map Token.text

/-- What the tokens of a source say, the closing one last. -/
def readings (source : String) : List (TokenKind × String) := (tokenize source).map Token.reading

theorem Lexed.read {found : List (TokenKind × String)} {gaps : List (List Char)} {source : String}
    (lexed : Lexed found gaps source.toList) :
    readings source = found ++ [(.endOfFile, "<EOF>")] ∧ lexicalErrors source = [] := by
  obtain ⟨tokens, scanned, same⟩ := lexed.scanned .origin
  have all : scan source = tokens.map .token := scanned
  constructor
  · rw [readings, tokenize, all, ← same]
    simp [List.filterMap_map, Function.comp_def, Scanned.token?, Token.reading, Token.closing]
  · rw [lexicalErrors, all]
    simp [List.filterMap_map, Function.comp_def, Scanned.fault?]

theorem clean_lexed {source : String} (clean : lexicalErrors source = []) :
    ∃ found gaps, Lexed found gaps source.toList ∧ tokenTexts source = found.map Prod.snd ∧
      readings source = found ++ [(.endOfFile, "<EOF>")] := by
  obtain ⟨gaps, lexed⟩ := scan_from_lexed .origin source.toList clean
  refine ⟨_, gaps, lexed, ?_, lexed.read.1⟩
  have named : ∀ token ∈ (scan source).filterMap Scanned.token?, token.kind ≠ .endOfFile := by
    intro token member
    obtain ⟨piece, inside, same⟩ := List.mem_filterMap.mp member
    have tiles := scan_from_tiles source.toList .origin
    obtain ⟨_, _, _, _, _, _, _, reads⟩ := tiles.covered piece inside
    cases piece with
    | token own =>
        obtain rfl := Option.some.inj same
        exact reads.1
    | fault error => cases same
  have kept : ((scan source).filterMap Scanned.token?).filter (·.kind ≠ .endOfFile) =
      (scan source).filterMap Scanned.token? := by
    rw [List.filter_eq_self]
    simpa using named
  rw [tokenTexts, tokenize, List.filter_append, kept]
  simp [Token.closing, Function.comp_def, Token.reading, scan]

theorem Spaced.behind_space {words : List String} {gaps : List (List Char)} {chars : List Char}
    (spaced : Spaced words ([] :: gaps) chars) : Spaced words ([' '] :: gaps) (' ' :: chars) := by
  cases spaced with
  | last skipped => exact .last (.blank (by decide) skipped)
  | word skipped apart more => exact .word (.blank (by decide) skipped) apart more

theorem spaced_by_spaces (word : String) (words : List String) :
    ∃ gaps, Spaced (word :: words) ([] :: gaps) (" ".intercalate (word :: words)).toList ∧
      ∀ place, place + 1 < gaps.length → gaps[place]? ≠ some [] := by
  induction words generalizing word with
  | nil =>
      have alone : Spaced [word] [[], []] ([] ++ (word.toList ++ [])) :=
        .word .nil (fun _ => nofun) (.last .nil)
      exact ⟨[[]], by simpa using alone, by simp⟩
  | cons next words induction =>
      obtain ⟨gaps, spaced, apart⟩ := induction next
      have chars : (" ".intercalate (word :: next :: words)).toList =
          [] ++ (word.toList ++ ' ' :: (" ".intercalate (next :: words)).toList) := by
        simp [String.intercalate_cons_cons]
      rw [chars]
      refine ⟨[' '] :: gaps, .word .nil (fun _ => by simp) spaced.behind_space, ?_⟩
      intro place inside
      cases place with
      | zero => simp
      | succ place => exact apart place (by simpa using inside)

/-- The tokens of a source do not depend on its layout. A source without lexical errors has the same
tokens, again without errors, when their texts are joined by single spaces. It is its tokens with
gaps around them, and any other white space and comments in these places leave the tokens as they
are, where something stays between two tokens that had something between them and nothing that
begins with a slash is put directly behind a slash. -/
theorem tokens_kept_by_layout (source : String) (clean : lexicalErrors source = []) :
    (readings (" ".intercalate (tokenTexts source)) = readings source ∧
      lexicalErrors (" ".intercalate (tokenTexts source)) = []) ∧
    ∃ gaps, Spaced (tokenTexts source) gaps source.toList ∧
      ∀ other others, Spaced (tokenTexts source) others other.toList → KeepsApart gaps others →
        readings other = readings source ∧ lexicalErrors other = [] := by
  obtain ⟨found, gaps, lexed, texts, same⟩ := clean_lexed clean
  have kept : ∀ other others, Spaced (tokenTexts source) others other.toList →
      KeepsApart gaps others → readings other = readings source ∧ lexicalErrors other = [] := by
    intro other others spaced apart
    rw [texts] at spaced
    rw [same]
    exact (lexed.respaced spaced apart).read
  refine ⟨?_, gaps, texts ▸ lexed.spaced, kept⟩
  cases words : tokenTexts source with
  | nil =>
      rw [words] at kept
      refine kept _ [[]] ?_ ?_
      · simpa using Spaced.last .nil
      · intro place positive inside
        simp at inside
  | cons word rest =>
      obtain ⟨others, spaced, apart⟩ := spaced_by_spaces word rest
      rw [words] at kept
      refine kept _ _ spaced fun place positive inside empty => ?_
      obtain ⟨place, rfl⟩ := Nat.exists_eq_add_one.mpr positive
      exact absurd empty (apart place (by simpa using inside))

/-- A comment between a number and a name keeps them apart, and so does a space. -/
theorem number_and_name_kept_apart : lexicalErrors "x=1./*a*/e5;//d" = [] ∧
    readings "x = 1. e5 ;" = readings "x=1./*a*/e5;//d" ∧ lexicalErrors "x = 1. e5 ;" = [] := by
  have clean : lexicalErrors "x=1./*a*/e5;//d" = [] := by decide +kernel
  have joined : " ".intercalate (tokenTexts "x=1./*a*/e5;//d") = "x = 1. e5 ;" := by decide +kernel
  have kept := (tokens_kept_by_layout _ clean).1
  rw [joined] at kept
  exact ⟨clean, kept⟩

/-- A comment that is put directly behind a slash makes the slash begin a comment of its own. -/
theorem comment_behind_slash_swallows : lexicalErrors "a/b" = [] ∧
    tokenTexts "a/b" = ["a", "/", "b"] ∧ Skipped "/**/".toList "b".toList ∧
    readings ("a/" ++ "/**/" ++ "b") ≠ readings ("a/" ++ "b") := by
  refine ⟨by decide +kernel, by decide +kernel, ?_, by decide +kernel⟩
  have comment : Skipped ('/' :: '*' :: [] ++ '*' :: '/' :: []) "b".toList :=
    .block (by decide) .nil
  exact comment

end Lsl
