import Lsl.Proofs.Checking.Inversion
import Lsl.Proofs.Checking.Meaning
import Lsl.Proofs.Checking.Spelling
import Lsl.Proofs.Diagnostic.Mismatches
import Lsl.Proofs.Parsing.Blaming

/-!
Which errors are reported as assignments to what cannot be assigned to. Every assignment that the
grammar refuses for its left side is, once for each time it is refused. The only others are errors at
a string that has the words of such a message in it: they are mistaken for it.
-/

set_option autoImplicit false

namespace Lsl

theorem TokenKind.open_of_assignment {kind : TokenKind} (assigns : kind.isAssignment = true) :
    kind ≠ .endOfFile := by
  rintro rfl
  cases assigns

/-- An assignment is refused for its left side: in front of it stands an expression that cannot be
assigned to. -/
def Refused (tokens : List Token) (error : SyntaxError) : Prop :=
  ∃ front operand sign back, ∃ left : Expr, tokens = front ++ operand ++ sign :: back ∧
    Spells left.words operand ∧ left.isAssignable = false ∧ sign.kind.isAssignment = true ∧
      error = .mismatched sign Parser.afterExpression

/-- Something else was expected than a string, and from the string on the message reads as one about
a refused assignment. -/
def Quoted (tokens : List Token) (error : SyntaxError) : Prop :=
  ∃ literal ∈ tokens, literal.kind = .string ∧ ∃ expecting ∈ expectations,
    error = .mismatched literal expecting ∧
      SyntaxError.isAssignmentMismatch (literal.text ++ "' expecting " ++ expecting) = true

noncomputable instance (tokens : List Token) : DecidablePred (Refused tokens) := Classical.decPred _

noncomputable instance (tokens : List Token) : DecidablePred (Quoted tokens) := Classical.decPred _

/-- The token has the words in it of a message that an assignment was not expected. -/
def Token.TellsOfAssignment (token : Token) : Prop :=
  ∃ sign ∈ assignmentTexts, SyntaxError.assignmentWords sign <:+: token.text.toList

namespace Cursor

theorem Closed.ahead_eq {cursor : Cursor} (closed : cursor.Closed)
    (open_ : cursor.kind ≠ .endOfFile) : ∃ rest, cursor.ahead = cursor.current :: rest := by
  cases here : cursor.ahead with
  | nil => exact absurd (closed.kind_eq_iff.mpr here) open_
  | cons token rest => exact ⟨rest, by rw [current, here, List.headD_cons]⟩

theorem ahead_infix {tokens : List Token} {place : Cursor}
    (reaches : (ofTokens tokens).Reaches place) : place.ahead <:+: tokens :=
  reaches.ahead.isInfix.trans (List.takeWhile_prefix _).isInfix

end Cursor

namespace Diagnostic

theorem non_assignable_iff {error : SyntaxError} :
    (ofSyntaxError error).problem.category = .nonAssignable ↔
      error.kind = .grammar ∧ SyntaxError.isAssignmentMismatch error.message = true := by
  obtain ⟨kind, symbol, message, span⟩ := error
  cases kind with
  | grammar =>
      by_cases mismatch : SyntaxError.isAssignmentMismatch message = true
      · simp [ofSyntaxError, mismatch, Problem.category]
      · simp [ofSyntaxError, mismatch, Problem.category]
  | _ => simp [ofSyntaxError, Problem.category]

end Diagnostic

section

variable {source : String} {error : SyntaxError}

theorem Refused.sign (refused : Refused (tokenize source) error) :
    error.symbol.toList ∈ assignmentTexts := by
  obtain ⟨front, operand, sign, back, left, shown, _, _, assigns, rfl⟩ := refused
  have member : sign ∈ tokenize source := by simp [shown]
  exact (tokenize_writes member (TokenKind.open_of_assignment assigns)).assigns assigns

theorem Refused.mismatch (refused : Refused (tokenize source) error) :
    error.kind = .grammar ∧ SyntaxError.isAssignmentMismatch error.message = true := by
  have written := refused.sign
  obtain ⟨_, _, sign, _, _, _, _, _, _, rfl⟩ := refused
  have listed : Parser.afterExpression ∈ expectations := by decide
  exact ⟨rfl, (SyntaxError.mismatch_of_sign listed written).trans (decide_eq_true rfl)⟩

theorem Quoted.mismatch (quoted : Quoted (tokenize source) error) :
    error.kind = .grammar ∧ SyntaxError.isAssignmentMismatch error.message = true := by
  obtain ⟨literal, member, string, expecting, _, rfl, told⟩ := quoted
  have written := tokenize_writes member (by simp [string])
  obtain ⟨inner, text⟩ := written.quoted string
  exact ⟨rfl, (SyntaxError.mismatch_of_quoted text).trans told⟩

theorem Quoted.tells (quoted : Quoted (tokenize source) error) :
    ∃ literal ∈ tokenize source, literal.kind = .string ∧ literal.TellsOfAssignment := by
  obtain ⟨literal, member, string, expecting, listed, _, told⟩ := quoted
  have written := tokenize_writes member (by simp [string])
  obtain ⟨inner, text⟩ := written.quoted string
  obtain ⟨sign, known, words⟩ := SyntaxError.words_of_quoted listed text told
  refine ⟨literal, member, string, sign, known, words.trans ?_⟩
  rw [text]
  exact ⟨['"'], ['"'], rfl⟩

theorem Refused.not_quoted (refused : Refused (tokenize source) error) :
    ¬ Quoted (tokenize source) error := by
  rintro ⟨literal, member, string, expecting, _, rfl, _⟩
  obtain ⟨inner, text⟩ := (tokenize_writes member (by simp [string])).quoted string
  have sign : literal.text.toList ∈ assignmentTexts := refused.sign
  have unquoted := (SyntaxError.assignments_quoteless _ sign).2.2
  rw [text] at unquoted
  exact unquoted List.mem_cons_self

theorem Cursor.Blames.told (blames : (Cursor.ofTokens (tokenize source)).Blames error)
    (mismatch : SyntaxError.isAssignmentMismatch error.message = true) :
    Refused (tokenize source) error ∨ Quoted (tokenize source) error := by
  have closed := Cursor.closed_of_tokens (tokenize source)
  cases blames with
  | @refused origin place left begins reaches behind fixed assigns =>
      have open_ := TokenKind.open_of_assignment assigns
      obtain ⟨rest, here⟩ := ((closed.after begins).after reaches).ahead_eq open_
      obtain ⟨front, back, shown⟩ := Cursor.ahead_infix begins
      obtain ⟨operand, ahead, spells⟩ := behind
      refine .inl ⟨front, operand, place.current, rest ++ back, left, ?_, spells, fixed, assigns,
        Cursor.mismatch_eq open_ _⟩
      rw [← shown, ahead, here]
      simp only [List.append_assoc, List.cons_append]
  | @missed place expecting reaches listed other =>
      by_cases open_ : place.kind = .endOfFile
      · have current : place.current.kind = .endOfFile := open_
        simp only [Cursor.mismatch, current, if_true] at mismatch
        rw [SyntaxError.not_mismatch_of_missing listed] at mismatch
        cases mismatch
      rw [Cursor.mismatch_eq open_] at mismatch ⊢
      obtain ⟨rest, here⟩ := (closed.after reaches).ahead_eq open_
      have member : place.current ∈ tokenize source :=
        (Cursor.ahead_infix reaches).subset (here ▸ List.mem_cons_self)
      have written := tokenize_writes member open_
      by_cases string : place.current.kind = .string
      · obtain ⟨inner, text⟩ := written.quoted string
        refine .inr ⟨place.current, member, string, expecting, listed, rfl, ?_⟩
        exact (SyntaxError.mismatch_of_quoted text).symm.trans mismatch
      · -- The token is the assignment itself, and that was not read as one behind an expression.
        exfalso
        by_cases sign : place.current.text.toList ∈ assignmentTexts
        · have assigns := written.assigned string sign
          have operator : expecting = Parser.afterExpression := by
            simpa [SyntaxError.mismatched, SyntaxError.mismatch_of_sign listed sign] using mismatch
          have plain : place.current.kind.isAssignment = false := other operator
          rw [plain] at assigns
          cases assigns
        · have plain := SyntaxError.not_mismatch_of_plain listed (written.plain string) sign
          exact absurd mismatch (by simp [SyntaxError.mismatched, plain])

/-- An error of a source is reported as an assignment to what cannot be assigned to exactly if an
assignment was refused, or a string reads as if one had been. -/
theorem non_assignable_error (member : error ∈ syntaxErrors source) :
    (Diagnostic.ofSyntaxError error).problem.category = .nonAssignable ↔
      Refused (tokenize source) error ∨ Quoted (tokenize source) error := by
  rw [Diagnostic.non_assignable_iff]
  constructor
  · rintro ⟨grammar, mismatch⟩
    rcases List.mem_append.mp ((List.mergeSort_perm _ _).mem_iff.mp member) with lexical | parsed
    · exact absurd grammar (lexical_errors_kind lexical)
    · exact (parse_blames _ error parsed).told mismatch
  · rintro (refused | quoted)
    · exact refused.mismatch
    · exact quoted.mismatch

end

theorem map_filter_or_iff {α β : Type} {list : List α} {kept more : α → Prop}
    [DecidablePred kept] [DecidablePred fun value => kept value ∨ more value] (told : α → β)
    (apart : ∀ value ∈ list, kept value → ¬ more value) :
    (list.filter fun value => kept value ∨ more value).map told =
        (list.filter fun value => kept value).map told ↔
      ∀ value ∈ list, ¬ more value := by
  constructor
  · intro same value member extra
    have fewer : (list.filter fun value => kept value).Sublist
        (list.filter fun value => kept value ∨ more value) :=
      List.monotone_filter_right list fun value keep => by
        simpa using .inl (of_decide_eq_true keep)
    have equal := fewer.eq_of_length (by simpa using (congrArg List.length same).symm)
    have inside : value ∈ list.filter fun value => kept value ∨ more value := by
      simp [member, extra]
    rw [← equal] at inside
    have keep : kept value := by simpa [member] using inside
    exact apart value member keep extra
  · intro none
    refine congrArg _ (List.filter_congr fun value member => ?_)
    simp [none value member]

theorem non_assignable_reports (library : Library) (source : String) :
    (checkSource library source).reports.filter (·.problem.category == .nonAssignable) =
      ((syntaxErrors source).filter fun error =>
        Refused (tokenize source) error ∨ Quoted (tokenize source) error).map
          Diagnostic.ofSyntaxError := by
  by_cases clean : syntaxErrors source = []
  · -- What is reported then is about the meaning.
    have meant := meant_declarations library (parse (tokenize source)).1
    unfold Checked.Meant at meant
    rw [check_source_eq clean, clean, List.filter_nil, List.map_nil, List.filter_eq_nil_iff]
    intro report member category
    have other := meant report member
    rw [Problem.isMeant, eq_of_beq category] at other
    cases other
  · rw [check_source_faulty library clean, List.filter_map]
    refine congrArg _ (List.filter_congr fun error member => ?_)
    rw [Function.comp_apply, Bool.eq_iff_iff, beq_iff_eq, decide_eq_true_iff]
    exact non_assignable_error member

/-- What is reported as an assignment to what cannot be assigned to are the assignments that were
refused, each as often as it was refused, and the errors at strings that read as if one had been. So
these are the refused assignments alone exactly if no such error is at a string, and there is none
where no string has the words of such a message in it. -/
theorem non_assignable_told (library : Library) (source : String) :
    let told := (checkSource library source).reports.filter (·.problem.category == .nonAssignable)
    let refused := (syntaxErrors source).filter fun error => Refused (tokenize source) error
    told = ((syntaxErrors source).filter fun error =>
        Refused (tokenize source) error ∨ Quoted (tokenize source) error).map
          Diagnostic.ofSyntaxError ∧
      (told = refused.map Diagnostic.ofSyntaxError ↔
        ∀ error ∈ syntaxErrors source, ¬ Quoted (tokenize source) error) ∧
      ∀ error, Quoted (tokenize source) error →
        ∃ literal ∈ tokenize source, literal.kind = .string ∧ literal.TellsOfAssignment := by
  intro told refused
  refine ⟨non_assignable_reports library source, ?_, fun _ => Quoted.tells⟩
  simp only [told]
  rw [non_assignable_reports]
  exact map_filter_or_iff _ fun error _ => Refused.not_quoted

/-- A string where something else was expected is reported as an assignment, and none was refused. -/
theorem quoted_message_mistaken :
    let source := "default \x7b state_entry() \x7b integer x; x \"mismatched input '=' " ++
      "expecting \x7b'*'\x7d\"; \x7d \x7d"
    (checkSource .minimal source).reports.map (·.problem.category) = [.nonAssignable] ∧
      ∀ error ∈ syntaxErrors source, ¬ Refused (tokenize source) error := by
  intro source
  have spelled : source = String.ofList _ := String.ofList_append.symm
  have facts : (checkSource .minimal source).reports.map (·.problem.category) = [.nonAssignable] ∧
      ∀ error ∈ syntaxErrors source, error.symbol.toList ∉ assignmentTexts := by
    rw [check_source_spelled spelled, syntax_errors_spelled spelled]
    decide +kernel
  exact ⟨facts.1, fun error member refused => facts.2 error member refused.sign⟩

end Lsl
