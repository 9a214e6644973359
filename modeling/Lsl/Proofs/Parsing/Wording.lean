import Lsl.Proofs.Parsing.Clauses
import Lsl.Proofs.Parsing.Precedence

/-!
What is read of statements. Their expressions are sound in any case, since one that is not is given
up together with the statement it stands in. What is reported can be seen in what is read: a
statement that is given up leaves a broken part behind. Where none is left, the tokens that were
taken are the words of the statements.
-/

set_option autoImplicit false

namespace Lsl

/-- Statements as the readers build them when nothing is reported: nothing in them is at fault, and
their expressions are well-precedenced. -/
structure Stmt.AllSound (body : List Stmt) : Prop where
  clean : Stmt.listHasErrors body = false
  precedenced : ∀ stmt ∈ Stmt.listStatements body, ∀ expr ∈ stmt.exprs, expr.isPrecedenced = true

structure Stmt.Sound (stmt : Stmt) : Prop where
  clean : stmt.hasErrors = false
  precedenced : ∀ inner ∈ stmt.statements, ∀ expr ∈ inner.exprs, expr.isPrecedenced = true

namespace Stmt

theorem AllSound.head {stmt : Stmt} {rest : List Stmt} (sound : AllSound (stmt :: rest)) :
    stmt.Sound where
  clean := by
    have clean := sound.clean
    simp only [listHasErrors, Bool.or_eq_false_iff] at clean
    exact clean.1
  precedenced := fun inner inside => sound.precedenced inner (List.mem_append_left _ inside)

theorem AllSound.tail {stmt : Stmt} {rest : List Stmt} (sound : AllSound (stmt :: rest)) :
    AllSound rest where
  clean := by
    have clean := sound.clean
    simp only [listHasErrors, Bool.or_eq_false_iff] at clean
    exact clean.2
  precedenced := fun inner inside => sound.precedenced inner (mem_of_rest inside)

theorem Sound.part {stmt : Stmt} (sound : stmt.Sound) {part : CodeScope}
    (member : part ∈ stmt.parts) : AllSound part.body where
  clean := (has_errors_iff.mp sound.clean).2.2 part member
  precedenced := by
    intro inner inside
    refine sound.precedenced inner ?_
    rw [statements_eq]
    exact List.mem_cons_of_mem _ (List.mem_flatMap.mpr ⟨part, member, inside⟩)

theorem Sound.expr {stmt : Stmt} (sound : stmt.Sound) {expr : Expr} (member : expr ∈ stmt.exprs) :
    expr.Sound where
  clean := (has_errors_iff.mp sound.clean).2.1 expr member
  precedenced := sound.precedenced stmt stmt.mem_statements_self expr member

/-- A statement is made of its own expressions and of its scopes. -/
theorem body_exprs_cons (stmt : Stmt) (rest : List Stmt) :
    bodyExprs (stmt :: rest) =
      stmt.exprs ++ (stmt.parts.flatMap fun part => bodyExprs part.body) ++ bodyExprs rest := by
  simp [bodyExprs, listStatements, statements_eq, List.flatMap_assoc]

theorem has_errors_of_sound {stmt : Stmt} (whole : stmt.isFaulty = false)
    (sound : ∀ expr ∈ stmt.exprs, expr.Sound) :
    stmt.hasErrors = stmt.parts.any fun part => listHasErrors part.body := by
  rw [Bool.eq_iff_iff, ← not_iff_not, Bool.not_eq_true, Bool.not_eq_true, has_errors_iff,
    List.any_eq_false]
  simpa [whole] using fun _ expr member => (sound expr member).clean

end Stmt

/-- The expressions in what is read, and in the statements inside. -/
def Clause.exprs : Clause → List Expr
  | statement stmt | turn stmt => Stmt.bodyExprs [stmt]
  | scope _ _ inside | statements inside | body _ _ inside => Stmt.bodyExprs inside
  | alternatives rest =>
    rest.conditions ++ rest.parts.flatMap fun part => Stmt.bodyExprs part.body
  | begun | failure _ => []

theorem Clause.Runs.sound {clause : Clause} {cursor after : Cursor}
    (runs : clause.Runs cursor after) : ∀ expr ∈ clause.exprs, expr.Sound := by
  have statement {stmt : Stmt} (own : ∀ expr ∈ stmt.exprs, expr.Sound)
      (parts : ∀ expr ∈ stmt.parts.flatMap fun part => Stmt.bodyExprs part.body, expr.Sound) :
      ∀ expr ∈ Stmt.bodyExprs [stmt], expr.Sound := by
    rw [Stmt.body_exprs_cons]
    exact List.forall_mem_append.mpr ⟨List.forall_mem_append.mpr ⟨own, parts⟩,
      List.forall_mem_nil _⟩
  induction runs with
  | plain inner =>
      refine statement inner.sound ?_
      rw [inner.alone.1]
      exact List.forall_mem_nil _
  | block _ inner =>
      exact statement (List.forall_mem_nil _) (by simpa [Stmt.parts, exprs] using inner)
  | branch _ test _ _ inner others =>
      have split := List.forall_mem_append.mp others
      refine statement (List.forall_mem_cons.mpr ⟨?_, split.1⟩) ?_
      · exact test.sound _ (List.mem_singleton_self _)
      · simpa [Stmt.parts, exprs] using List.forall_mem_append.mpr ⟨inner, split.2⟩
  | whileLoop _ test _ inner | doLoop _ _ _ test _ inner =>
      exact statement test.sound (by simpa [Stmt.parts, exprs] using inner)
  | forLoop _ clauses _ inner =>
      exact statement clauses.sound (by simpa [Stmt.parts, exprs] using inner)
  | followed _ _ _ _ inner others =>
      have whole := List.forall_mem_append.mpr ⟨inner, others⟩
      simpa [exprs, Stmt.body_exprs_cons, Stmt.bodyExprs, Stmt.listStatements] using whole
  | scope _ _ _ inner | read _ inner | braced _ inner | single _ _ inner => exact inner
  | elseIf _ _ test _ _ inner others =>
      have split := List.forall_mem_append.mp others
      have own := test.sound _ (List.mem_singleton_self _)
      refine List.forall_mem_append.mpr ⟨List.forall_mem_cons.mpr ⟨own, split.1⟩, ?_⟩
      simpa [Alternatives.parts, exprs] using List.forall_mem_append.mpr ⟨inner, split.2⟩
  | otherwise _ _ inner => simpa [exprs, Alternatives.conditions, Alternatives.parts] using inner
  | _ => exact List.forall_mem_nil _

/-- Between the cursors something was read: nothing was reported if and only if it has no errors. -/
structure Cursor.Reports (cursor after : Cursor) (faulty : Bool) : Prop where
  reaches : cursor.Reaches after
  shown : after.errors = cursor.errors ↔ faulty = false

namespace Cursor

variable {cursor middle after : Cursor} {faulty worse : Bool}

theorem Passes.errors (passed : cursor.Passes after) : after.errors = cursor.errors := by
  induction passed with
  | here => rfl
  | token _ _ rest => exact rest.trans (errors_step _)

namespace Reports

theorem passes (passed : cursor.Passes after) : cursor.Reports after false :=
  ⟨passed.reaches, by simp [passed.errors]⟩

theorem step : cursor.Reports cursor.step false := ⟨cursor.reaches_step, by simp [errors_step]⟩

theorem numbered : cursor.Reports cursor.numbered false :=
  ⟨Carries.reaches.numbered cursor, by simp [Cursor.numbered]⟩

theorem append (front : cursor.Reports middle faulty) (back : middle.Reports after worse) :
    cursor.Reports after (faulty || worse) where
  reaches := front.reaches.trans back.reaches
  shown := by
    rw [Bool.or_eq_false_iff, ← front.shown, ← back.shown]
    constructor
    · exact front.reaches.silent back.reaches
    · intro silent
      exact silent.2.trans silent.1

theorem later (reports : middle.Reports after faulty) (front : cursor.Reports middle false) :
    cursor.Reports after faulty :=
  front.append reports

theorem longer (reports : cursor.Reports middle faulty) (back : middle.Reports after false) :
    cursor.Reports after faulty := by
  simpa using reports.append back

theorem abandoned {failed : Cursor} (reaches : cursor.Reaches failed) (skip : List Token → Nat)
    (error : SyntaxError) : cursor.Reports (failed.abandoned skip error) true where
  reaches := reaches.trans (reaches_abandoned failed skip error)
  shown := by simpa using errors_abandoned_ne reaches skip error

end Reports

end Cursor

/-- Something that is read is not whole. Of what is given up nothing is known. -/
def Clause.hasErrors : Clause → Bool
  | statement stmt | turn stmt => stmt.hasErrors
  | scope _ _ inside | statements inside | body _ _ inside => Stmt.listHasErrors inside
  | alternatives rest => rest.hasErrors
  | begun | failure _ => true

def Clause.IsRead : Clause → Prop
  | begun | failure _ => False
  | _ => True

theorem Clause.Runs.reports {clause : Clause} {cursor after : Cursor}
    (runs : clause.Runs cursor after) (whole : clause.IsRead) :
    cursor.Reports after clause.hasErrors := by
  have phrase {phrase : Phrase} {place last : Cursor} (inner : phrase.Runs place last) :
      place.Reports last false :=
    .passes inner.passes
  have clean {value : Expr} {place last : Cursor} (test : (Phrase.condition value).Runs place last) :
      value.hasErrors = false :=
    (test.sound value (List.mem_singleton_self value)).clean
  induction runs with
  | @plain stmt _ _ inner =>
      have errors := Stmt.has_errors_of_sound inner.alone.2.1 inner.sound
      rw [inner.alone.1, List.any_nil] at errors
      rw [hasErrors, errors]
      exact phrase inner
  | block _ inner | braced _ inner | read _ inner => exact inner trivial
  | branch _ test _ _ inner rest =>
      have behind := (inner trivial).append (rest trivial)
      simpa [hasErrors, Stmt.hasErrors, clean test] using
        (behind.later (phrase test)).later .step
  | whileLoop _ test _ inner =>
      simpa [hasErrors, Stmt.hasErrors, clean test] using
        ((inner trivial).later (phrase test)).later .step
  | doLoop _ _ _ test _ inner =>
      have behind := ((phrase test).later .step).longer .step
      simpa [hasErrors, Stmt.hasErrors, clean test] using ((inner trivial).later .step).longer behind
  | forLoop _ clauses _ inner =>
      rw [hasErrors, Stmt.has_errors_of_sound (by rfl) (by exact clauses.sound)]
      simpa [hasErrors, Stmt.parts] using ((inner trivial).later (phrase clauses)).later .step
  | scope _ _ _ inner => exact (((inner trivial).later .numbered).later .step).longer .step
  | ended | done => exact .passes (.here _)
  | followed _ _ _ _ inner others => exact (inner trivial).append (others trivial)
  | broken _ _ inner => exact .abandoned inner.reaches _ _
  | single _ _ inner =>
      simpa [hasErrors, Stmt.listHasErrors] using (inner trivial).later .numbered
  | elseIf _ _ test _ _ inner rest =>
      have behind := (inner trivial).append (rest trivial)
      simpa [hasErrors, Alternatives.hasErrors, clean test] using
        ((behind.later (phrase test)).later .step).later .step
  | otherwise _ _ inner => exact (inner trivial).later .step
  | _ => exact whole.elim

def Clause.words : Clause → List Word
  | statement stmt | turn stmt => stmt.words
  | scope _ info inside | body _ info inside => info.enclose (Stmt.listWords inside)
  | statements inside => Stmt.listWords inside
  | alternatives rest => rest.words
  | begun | failure _ => []

/-- Between the cursors stand the words of what is read, unless a part of it is broken. -/
theorem Clause.Runs.takes {clause : Clause} {cursor after : Cursor}
    (runs : clause.Runs cursor after) (clean : clause.hasErrors = false) :
    cursor.Takes after clause.words := by
  have mark {place : Cursor} {kind : TokenKind} (found : place.kind = kind)
      (goes : kind ≠ .endOfFile) : place.Takes place.step [.mark kind] :=
    .mark found goes
  have number {place last : Cursor} {words : List Word} (inner : place.numbered.Takes last words) :
      place.Takes last words := inner
  induction runs with
  | plain inner => exact inner.takes
  | block _ inner | braced _ inner | read _ inner => exact inner clean
  | branch word test _ _ inner rest =>
      simp only [hasErrors, Stmt.hasErrors, Bool.or_eq_false_iff] at clean
      have front := (mark word (by decide)).append test.takes
      simpa [words, Stmt.words, Phrase.words] using
        (front.append (inner clean.1.2)).append (rest clean.2)
  | whileLoop word test _ inner =>
      simp only [hasErrors, Stmt.hasErrors, Bool.or_eq_false_iff] at clean
      have front := (mark word (by decide)).append test.takes
      simpa [words, Stmt.words, Phrase.words] using front.append (inner clean.2)
  | doLoop word _ again test ends inner =>
      simp only [hasErrors, Stmt.hasErrors, Bool.or_eq_false_iff] at clean
      have front := (mark word (by decide)).append (inner clean.1.2)
      have back := ((mark again (by decide)).append test.takes).append (mark ends (by decide))
      simpa [words, Stmt.words, Phrase.words] using front.append back
  | forLoop word clauses _ inner =>
      simp only [hasErrors, Stmt.hasErrors, Bool.or_eq_false_iff] at clean
      have front := (mark word (by decide)).append clauses.takes
      simpa [words, Stmt.words, Phrase.words] using front.append (inner clean.2)
  | scope opens _ closes inner =>
      have front := (mark opens (by decide)).append (number (inner clean))
      simpa [words, ScopeInfo.enclose] using front.append (mark closes (by decide))
  | ended | done => exact .none _
  | followed _ _ _ _ inner others =>
      simp only [hasErrors, Stmt.listHasErrors, Bool.or_eq_false_iff] at clean
      exact (inner clean.1).append (others clean.2)
  | single _ _ inner =>
      simp only [hasErrors, Stmt.listHasErrors, Bool.or_eq_false_iff] at clean
      simpa [words, ScopeInfo.enclose, Stmt.listWords] using number (inner clean.1)
  | elseIf word again test _ _ inner rest =>
      simp only [hasErrors, Alternatives.hasErrors, Bool.or_eq_false_iff] at clean
      have front := ((mark word (by decide)).append (mark again (by decide))).append test.takes
      simpa [words, Alternatives.words, Phrase.words] using
        (front.append (inner clean.1.2)).append (rest clean.2)
  | otherwise word _ inner =>
      simpa [words, Alternatives.words] using (mark word (by decide)).append (inner clean)
  | _ => cases clean

end Lsl
