import Lsl.Proofs.Checking.Inversion
import Lsl.Proofs.Parsing.Fidelity

/-!
Accepted sources: those for which no error is reported. Every body of theirs was read in order and
checked, every function of theirs that has to return a value was found to return one, and their
scripts are ready.
-/

set_option autoImplicit false

namespace Lsl

/-- Reading and checking the source reports no error. Warnings may be reported. -/
def Accepted (library : Library) (source : String) : Prop := (checkSource library source).Silent

instance (library : Library) (source : String) : Decidable (Accepted library source) :=
  inferInstanceAs (Decidable (checkSource library source).Silent)

theorem syntax_error_is_error (error : SyntaxError) :
    (Diagnostic.ofSyntaxError error).isError = true := by
  unfold Diagnostic.ofSyntaxError Diagnostic.isError
  cases error.kind with
  | grammar =>
      by_cases mismatch : SyntaxError.isAssignmentMismatch error.message = true
      · simp [mismatch, Problem.severity]
      · simp [mismatch, Problem.severity]
  | _ => rfl

theorem Accepted.syntax_errors {library : Library} {source : String}
    (accepted : Accepted library source) : syntaxErrors source = [] := by
  cases errors : syntaxErrors source with
  | nil => rfl
  | cons error rest =>
      unfold Accepted checkSource at accepted
      simp only [errors, List.isEmpty_cons, Bool.false_eq_true, if_false] at accepted
      have wrong := accepted _ (List.mem_map_of_mem List.mem_cons_self)
      rw [syntax_error_is_error] at wrong
      cases wrong

theorem Accepted.parsed {library : Library} {source : String}
    (accepted : Accepted library source) : (parse (tokenize source)).2 = [] :=
  parse_silent accepted.syntax_errors

theorem Accepted.silent {library : Library} {source : String} (accepted : Accepted library source) :
    (checkDeclarations library (parse (tokenize source)).1).Silent := by
  have clean := accepted.syntax_errors
  rw [Accepted, check_source_eq clean] at accepted
  exact fun report member => accepted report member

theorem Accepted.resolved {library : Library} {source : String}
    (accepted : Accepted library source) {body : CodeScope}
    (inside : body ∈ (checkSource library source).value.bodies) : body.Resolved := by
  rw [check_source_eq accepted.syntax_errors, Script.bodies_concluded] at inside
  refine check_declarations_resolved ?_ accepted.silent body inside
  intro body inside
  have read := parse_bodies inside
  exact ⟨read.1, read.2 accepted.parsed⟩

theorem Accepted.returns {library : Library} {source : String}
    (accepted : Accepted library source) {decl : FunctionDecl}
    (member : decl ∈ (checkSource library source).value.functions) (valued : decl.returns ≠ .void) :
    Stmt.anyReturns decl.body = true := by
  rw [check_source_eq accepted.syntax_errors, Script.functions_concluded] at member
  obtain ⟨outlook, origin, _, _, silent, rfl⟩ :=
    check_declarations_function accepted.silent member
  simp only [checkFunction, Checked.silent_bind] at silent
  obtain ⟨_, complete, _⟩ := silent
  by_contra incomplete
  have given : origin.returns ≠ .void := valued
  have missing : (origin.returns == .void || Stmt.anyReturns
      (checkBody outlook (.function origin.name origin.returns) origin.parameters origin.scope
        origin.body).value.2) = false := by
    simp only [Bool.or_eq_false_iff, beq_eq_false_iff_ne]
    exact ⟨given, Bool.not_eq_true _ ▸ incomplete⟩
  rw [missing] at complete
  simp [reportAt, Checked.Silent, Diagnostic.isError, Problem.severity] at complete

/-- Without an error among the reports a script keeps its mark. -/
theorem Script.concluded_silent {α : Type} (script : Script) {checked : Checked α}
    (silent : checked.Silent) : script.concluded checked.reports = script := by
  have none : checked.reports.any Diagnostic.isError = false := by
    simpa [Checked.Silent] using silent
  simp [Script.concluded, none]

/-- The script of an accepted source is what checking its declarations gives. -/
theorem Accepted.checked {library : Library} {source : String}
    (accepted : Accepted library source) :
    (checkSource library source).value =
      (checkDeclarations library (parse (tokenize source)).1).value := by
  rw [check_source_eq accepted.syntax_errors]
  exact Script.concluded_silent _ accepted.silent

theorem Accepted.recorded {library : Library} {source : String}
    (accepted : Accepted library source) :
    (checkSource library source).value.uses = (checkSource library source).value.boundUses := by
  obtain ⟨script, same⟩ : ∃ script : Script,
      (checkDeclarations library (parse (tokenize source)).1).value = script.recorded := ⟨_, rfl⟩
  rw [accepted.checked, same]
  rfl

theorem Accepted.ready {library : Library} {source : String} (wellFormed : library.WellFormed)
    (accepted : Accepted library source) : (checkSource library source).value.Ready library := by
  rw [accepted.checked]
  exact check_declarations_ready wellFormed (parse_sound accepted.parsed) accepted.silent

end Lsl
