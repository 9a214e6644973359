import Lsl.Proofs.Generation.Effects
import Lsl.Proofs.Generation.Standing

/-!
Expressions that are written as statements. The target language takes an assignment, a call, a step
up or down or the creation of an object for a statement, but nothing in parentheses, no cast and no
combination of truth values.
-/

set_option autoImplicit false

namespace Lsl

/-- The operators of steps up and down. -/
def isStepSymbol (symbol : String) : Bool := symbol == "++" || symbol == "--"

namespace Code

def isPerformable : Code → Bool
  | create _ _ _ => true
  | invoke _ _ => true
  | operate _ _ _ => true
  | assign _ _ => true
  | before symbol _ => isStepSymbol symbol
  | behind _ symbol => isStepSymbol symbol
  | _ => false

end Code

/-- The expressions written as statements by a statement itself, apart from what stands in its
scopes. -/
def CodeStmt.performed : CodeStmt → List Code
  | perform value => [value]
  | forLoop init _ afterthought _ => init ++ afterthought
  | _ => []

def PrefixOperator.isCalled (operator : PrefixOperator) (operand : ValueType) : Bool :=
  operand == .rotation || operand == .vector && operator == .negate

def isIdleCast (manner : Manner) (target source : ValueType) : Bool :=
  target == source || manner.settings.keysAreStrings && isTextual target && isTextual source

namespace Expr

/-- An expression with an effect is a statement by itself, written in a place that knows nothing of
statements. -/
def isSelfStanding (manner : Manner) : Expr → Bool
  | call _ _ _ _ _ => true
  | binary _ operator _ _ => !operator.isLogical
  | prefixed _ operator operand => operator.isCalled operand.type
  | cast _ target operand =>
    isIdleCast manner target operand.type && operand.isSelfStanding manner
  | _ => false

/-- An expression with an effect is a statement by itself, written as a statement or else as a
member of a clause. -/
def isPerformable (manner : Manner) (place : Place) : Expr → Bool
  | prefixed _ operator operand =>
    place == .statement || operator.isStep || operator.isCalled operand.type
  | postfixed _ _ _ => true
  | grouped _ inner => place == .statement || inner.isSelfStanding manner
  | expr => expr.isSelfStanding manner

end Expr

/-- The expressions a statement performs, with the places they are written in. -/
def Stmt.performed : Stmt → List (Place × Expr)
  | perform _ value => ([value].filter Expr.hasEffects).map (.statement, ·)
  | forLoop _ init _ afterthought _ _ =>
    ((listExprs init ++ listExprs afterthought).filter Expr.hasEffects).map (.element, ·)
  | _ => []

section

variable {manner : Manner} {around : Surroundings}

theorem prefixed_performable (operator : PrefixOperator) (operand : ValueType) (code : Code) :
    ((prefixedCode .elsewhere operator operand code).isPerformable = operator.isCalled operand) ∧
    (prefixedCode .statement operator operand code).isPerformable = true ∧
    ((prefixedCode .element operator operand code).isPerformable =
      (operator.isStep || operator.isCalled operand)) := by
  unfold prefixedCode PrefixOperator.isCalled
  cases operator <;> cases operand <;> exact ⟨rfl, rfl, rfl⟩

theorem binary_performable (place : Place) (info : ExprInfo) (operator : BinaryOperator)
    (left right : Expr) :
    ((Expr.binary info operator left right).code manner place).isPerformable =
      !operator.isLogical := by
  cases operator with
  | multiplyAssign =>
      obtain ⟨value, form⟩ := @assignment_code manner .multiplyAssign rfl (info.type.getD .void)
        left right (left.code manner .operand) (right.code manner .operand)
      rw [Expr.code]
      exact congrArg Code.isPerformable form
  | _ => rfl

theorem call_performable {target : CallTarget} (known : target.IsKnown manner.library around)
    (name : String) (arguments : List Code) :
    (callCode manner name target arguments).isPerformable = true := by
  obtain ⟨callee, _, form⟩ := call_code_known known name arguments
  rw [form]
  rfl

theorem cast_performable (target : ValueType) (operand : Expr) (code : Code) :
    (castCode manner target operand code).isPerformable =
      (isIdleCast manner target operand.type && code.isPerformable) := by
  have idle : isIdleCast manner target operand.type = true ↔ target = operand.type ∨
      (manner.settings.keysAreStrings && isTextual target && isTextual operand.type) = true := by
    simp only [isIdleCast, Bool.or_eq_true, beq_iff_eq]
  unfold castCode
  dsimp only
  cases same : isIdleCast manner target operand.type with
  | true => rw [if_pos (idle.mp same), Bool.true_and]
  | false =>
      rw [if_neg (mt idle.mpr (by simp [same])), Bool.false_and]
      split <;> rfl

namespace Expr

/-- An expression with an effect is a statement by itself in a place of no account exactly if it is
self-standing. -/
theorem self_standing_iff {expr : Expr} (effects : expr.hasEffects = true)
    (linked : ∀ node ∈ expr.nodes, node.IsLinked manner.library around) :
    (expr.code manner .elsewhere).isPerformable = expr.isSelfStanding manner := by
  induction expr using parts_induction with
  | step expr induction =>
      cases expr with
      | integer | hex | float | string | reference => cases effects
      | vector | rotation | list | postfixed | grouped | component => rfl
      | call info name inner arguments target =>
          exact call_performable (linked _ (mem_nodes_self _)) name _
      | binary info operator left right =>
          exact binary_performable .elsewhere info operator left right
      | prefixed info operator operand => exact (prefixed_performable operator operand.type _).1
      | cast info target operand =>
          rw [code, cast_performable, isSelfStanding]
          have inner := induction operand List.mem_cons_self effects fun node inside =>
            linked node (mem_nodes_of_part List.mem_cons_self inside)
          rw [inner]

theorem performable_iff {expr : Expr} (effects : expr.hasEffects = true)
    (linked : ∀ node ∈ expr.nodes, node.IsLinked manner.library around) {place : Place}
    (performs : place = .statement ∨ place = .element) :
    (expr.code manner place).isPerformable = expr.isPerformable manner place := by
  have same := self_standing_iff effects linked
  cases expr with
  | prefixed info operator operand =>
      obtain ⟨-, whole, member⟩ := prefixed_performable operator operand.type
        (operand.code manner (if operator = .negate then .negated else .elsewhere))
      rcases performs with rfl | rfl
      · exact whole
      · exact member
  | postfixed info operator operand =>
      rcases performs with rfl | rfl <;> cases operator <;> rfl
  | grouped info inner =>
      rcases performs with rfl | rfl
      · rfl
      · exact self_standing_iff effects fun node inside =>
          linked node (mem_nodes_of_part List.mem_cons_self inside)
  | integer | hex | float | string | reference => cases effects
  | _ => exact same

end Expr

theorem checkpoint_performs {stmt : CodeStmt} (member : stmt ∈ checkpointCode manner) :
    stmt.performed = [] := by
  unfold checkpointCode at member
  split at member
  · obtain rfl := List.mem_singleton.mp member
    rfl
  · cases member

theorem scope_start_performs {scope : ScopeInfo} {body : List Stmt} {stmt : CodeStmt}
    (member : stmt ∈ scopeStart manner scope body) : stmt.performed = [] := by
  rcases List.mem_append.mp member with member | member
  · obtain ⟨source, _, hoisted⟩ := List.mem_flatMap.mp member
    unfold hoistedCode at hoisted
    split at hoisted
    · split at hoisted
      · obtain rfl := List.mem_singleton.mp hoisted
        rfl
      · cases hoisted
    · cases hoisted
  · split at member
    · exact checkpoint_performs member
    · cases member

theorem performed_clause {list : Option ExprList} {code : Code}
    (member : code ∈ clauseCode manner list) :
    ∃ value ∈ (Stmt.listExprs list).filter Expr.hasEffects, code = value.code manner .element := by
  cases list with
  | none => cases member
  | some list =>
      rw [clauseCode, Expr.codes_eq] at member
      obtain ⟨value, inside, rfl⟩ := List.mem_map.mp member
      exact ⟨value, inside, rfl⟩

/-- What the code of a statement itself performs is written for what the statement performs, unless
it is the value of a return from a handler. -/
theorem performed_code {inHandler isLast : Bool} {scope : Nat} {source : Stmt} {stmt : CodeStmt}
    (written : stmt ∈ source.code manner inHandler scope isLast) {code : Code}
    (performs : code ∈ stmt.performed) :
    source.reach = .live ∧
      ((∃ info value, source = .giveBack info (some value) ∧
        code = .invoke (.utility "ForceStatement") [value.code manner .elsewhere]) ∨
      ∃ place value, (place, value) ∈ source.performed ∧ code = value.code manner place) := by
  have live (skipped : isSkipped manner source = (source.reach != .live && true))
      (kept : ¬ isSkipped manner source = true) : source.reach = .live := by
    rw [skipped] at kept
    simpa using kept
  cases source with
  | declare info decl =>
      rw [Stmt.code] at written
      split at written
      · cases written
      · unfold declarationCode at written
        split at written
        · cases written
        · obtain rfl := List.mem_singleton.mp written
          cases performs
  | perform info value =>
      rw [Stmt.code] at written
      split at written
      · cases written
      · rename_i kept
        rw [Bool.or_eq_true, not_or] at kept
        obtain rfl := List.mem_singleton.mp written
        obtain rfl := List.mem_singleton.mp performs
        refine ⟨live rfl kept.1, .inr ⟨.statement, value, ?_, rfl⟩⟩
        simpa [Stmt.performed] using kept.2
  | giveBack info value =>
      rw [Stmt.code] at written
      split at written
      · cases written
      · rename_i kept
        refine ⟨live rfl kept, .inl ?_⟩
        cases value with
        | none =>
            obtain rfl := List.mem_singleton.mp written
            cases performs
        | some value =>
            refine ⟨info, value, rfl, ?_⟩
            cases inHandler with
            | true =>
                rcases List.mem_pair.mp written with rfl | rfl
                · exact List.mem_singleton.mp performs
                · cases performs
            | false =>
                obtain rfl := List.mem_singleton.mp written
                cases performs
  | label info name =>
      rw [Stmt.code] at written
      split at written
      · cases written
      · unfold labelCode at written
        split at written
        · cases written
        · rcases List.mem_cons.mp written with rfl | member
          · cases performs
          · rw [checkpoint_performs member] at performs
            cases performs
  | forLoop info init condition afterthought inner body =>
      rw [Stmt.code] at written
      split at written
      · cases written
      · rename_i kept
        obtain rfl := List.mem_singleton.mp written
        refine ⟨live rfl kept, .inr ⟨.element, ?_⟩⟩
        simp only [Stmt.performed, List.filter_append, List.map_append, List.mem_append]
        rcases List.mem_append.mp performs with first | later
        · obtain ⟨value, inside, same⟩ := performed_clause first
          exact ⟨value, .inl (List.mem_map_of_mem inside), same⟩
        · obtain ⟨value, inside, same⟩ := performed_clause later
          exact ⟨value, .inr (List.mem_map_of_mem inside), same⟩
  | empty info => cases written
  | broken span =>
      obtain rfl := List.mem_singleton.mp written
      cases performs
  | _ =>
      rw [Stmt.code] at written
      split at written
      · cases written
      · obtain rfl := List.mem_singleton.mp written
        cases performs

end

theorem Stmt.performed_effects {stmt : Stmt} {place : Place} {value : Expr}
    (performs : (place, value) ∈ stmt.performed) :
    value ∈ stmt.exprs ∧ value.hasEffects = true ∧ (place = .statement ∨ place = .element) := by
  cases stmt with
  | perform info expr =>
      obtain ⟨found, member, same⟩ := List.mem_map.mp performs
      obtain ⟨rfl, rfl⟩ := Prod.mk.inj same
      obtain ⟨own, effects⟩ := List.mem_filter.mp member
      exact ⟨own, effects, .inl rfl⟩
  | forLoop info init condition afterthought scope body =>
      obtain ⟨found, member, same⟩ := List.mem_map.mp performs
      obtain ⟨rfl, rfl⟩ := Prod.mk.inj same
      obtain ⟨own, effects⟩ := List.mem_filter.mp member
      refine ⟨?_, effects, .inr rfl⟩
      simp only [exprs, List.mem_append] at own ⊢
      exact own.elim (.inl ∘ .inl) .inr
  | _ => cases performs

theorem StateDecl.handler_of_body {state : StateDecl} {body : CodeScope}
    (member : body ∈ state.bodies) : ∃ decl ∈ state.handlers, body = decl.ownScope := by
  obtain ⟨part, inside, found⟩ := List.mem_filterMap.mp member
  cases part with
  | handler decl =>
      cases found
      exact ⟨decl, List.mem_filterMap.mpr ⟨_, inside, rfl⟩, rfl⟩
  | broken span => cases found

theorem Script.Ready.statement {library : Library} {script : Script} (ready : script.Ready library)
    {body : CodeScope} (inside : body ∈ script.bodies) :
    ∃ around, ∀ stmt ∈ Stmt.listStatements body.body, stmt.Ready library around := by
  rcases List.mem_append.mp inside with inside | inside
  · obtain ⟨decl, known, rfl⟩ := List.mem_map.mp inside
    exact ⟨_, (ready.functions decl known).body⟩
  · obtain ⟨state, known, inside⟩ := List.mem_flatMap.mp inside
    obtain ⟨decl, held, rfl⟩ := StateDecl.handler_of_body inside
    exact ⟨_, ((ready.states state known).handlers decl held).body⟩

/-- What a method of an accepted source performs is written for a live statement of one body: for the
value that a handler returns, or for an expression whose names all mean something. -/
theorem Script.source_of_performed {library : Library} {source : String}
    (wellFormed : library.WellFormed) (accepted : Accepted library source) (settings : Settings)
    {method : Method} :
    let script := (checkSource library source).value
    let manner : Manner := ⟨library, settings, script.uses⟩
    method ∈ (script.program library settings).methods →
    ∃ body ∈ script.writtenBodies, ∃ around, ∀ (stmt : CodeStmt) scopes,
      stmt.Stands method.body scopes → ∀ code ∈ stmt.performed,
        ∃ found ∈ Stmt.liveStatements body.body,
          (∃ info value, found = .giveBack info (some value) ∧
            code = .invoke (.utility "ForceStatement") [value.code manner .elsewhere]) ∨
          ∃ place value, (place, value) ∈ found.performed ∧ code = value.code manner place ∧
            ∀ node ∈ value.nodes, node.IsLinked library around := by
  intro script manner member
  obtain ⟨body, inside, inHandler, formed⟩ := Script.body_of_method member
  obtain ⟨around, ready⟩ :=
    (accepted.ready wellFormed).statement (Script.written_bodies_subset inside)
  refine ⟨body, inside, around, ?_⟩
  intro stmt scopes stands code performs
  rw [formed] at stands
  rcases CodeScope.source_of_stands stands with ⟨scope, _, start⟩ | ⟨found, inside, _, _, written⟩
  · rw [scope_start_performs start] at performs
    cases performs
  · obtain ⟨live, performed⟩ := performed_code written performs
    refine ⟨found, List.mem_filter.mpr ⟨inside, by simp [live]⟩, ?_⟩
    rcases performed with returned | ⟨place, value, own, same⟩
    · exact .inl returned
    · refine .inr ⟨place, value, own, same, fun node member => ?_⟩
      exact ((ready found inside).exprs value (Stmt.performed_effects own).1 node member).linked

/-- Whatever a method of an accepted source performs is the value of a return from a handler, given
to a helper, or an expression of a live statement that has an effect. It is a statement of the target
language by itself exactly if the expression allows it: as a statement, anything but a vector, a
rotation, a list, a combination of truth values and a cast that leaves more than its operand; as a
member of a clause, no parentheses around one of those either, and no operator in front that
changes nothing. -/
theorem performed_performable_iff {library : Library} {source : String}
    (wellFormed : library.WellFormed) (accepted : Accepted library source) (settings : Settings) :
    let script := (checkSource library source).value
    let manner : Manner := ⟨library, settings, script.uses⟩
    let program := script.program library settings
    ∀ method ∈ program.methods, ∃ body ∈ script.writtenBodies, ∀ (stmt : CodeStmt) scopes,
      stmt.Stands method.body scopes →
        (∀ date, ∃ depth,
          stmt.fragments settings.access depth <:+: program.fragments settings date) ∧
        ∀ code ∈ stmt.performed, ∃ found ∈ Stmt.liveStatements body.body,
          (∃ info value, found = .giveBack info (some value) ∧
            code = .invoke (.utility "ForceStatement") [value.code manner .elsewhere]) ∨
          ∃ place value, (place, value) ∈ found.performed ∧ code = value.code manner place ∧
            (code.isPerformable = true ↔ value.isPerformable manner place = true) := by
  intro script manner program method member
  obtain ⟨body, written, around, performed⟩ :=
    Script.source_of_performed wellFormed accepted settings member
  refine ⟨body, written, ?_⟩
  intro stmt scopes stands
  refine ⟨Program.statement_within settings member stands, ?_⟩
  intro code performs
  obtain ⟨found, live, origin⟩ := performed stmt scopes stands code performs
  refine ⟨found, live, ?_⟩
  rcases origin with returned | ⟨place, value, own, same, linked⟩
  · exact .inl returned
  · obtain ⟨-, effects, places⟩ := Stmt.performed_effects own
    refine .inr ⟨place, value, own, same, ?_⟩
    rw [same, @Expr.performable_iff manner around value effects linked place places]

/-- What a loop does before it starts and after each turn. -/
theorem clauses_performable :
    let source := "integer n; integer next() \x7b return ++n; \x7d default \x7b " ++
      "state_entry() \x7b for (n = 0, next() * 2; n < 9; n++, (next())) n += 1; \x7d \x7d"
    let script := (checkSource .small source).value
    let manner : Manner := ⟨.small, {}, script.uses⟩
    Library.small.WellFormed ∧ Accepted .small source ∧
      ∃ method ∈ (script.program .small {}).methods, ∃ body ∈ script.writtenBodies,
        ∃ (stmt : CodeStmt) (scopes : List (List CodeStmt)), stmt.Stands method.body scopes ∧
          stmt.performed.map Code.isPerformable = [true, true, true, true] ∧
          ∀ code ∈ stmt.performed, ∃ found ∈ Stmt.liveStatements body.body,
            (∃ info value, found = .giveBack info (some value) ∧
              code = .invoke (.utility "ForceStatement") [value.code manner .elsewhere]) ∨
            ∃ place value, (place, value) ∈ found.performed ∧ code = value.code manner place ∧
              (code.isPerformable = true ↔ value.isPerformable manner place = true) := by
  intro source script manner
  have wellFormed : Library.small.WellFormed := ⟨by decide +kernel, by decide +kernel⟩
  have spelled : source = String.ofList _ := String.ofList_append.symm
  have facts : Accepted .small source ∧ ∃ method ∈ (script.program .small {}).methods,
      ∃ stmt ∈ method.body, stmt.performed.map Code.isPerformable = [true, true, true, true] := by
    simp only [Accepted, script, check_source_spelled spelled]
    decide +kernel
  obtain ⟨accepted, method, member, stmt, direct, shapes⟩ := facts
  obtain ⟨body, inside, performs⟩ := performed_performable_iff wellFormed accepted {} method member
  have stands : stmt.Stands method.body [method.body] := .here direct
  exact ⟨wellFormed, accepted, method, member, body, inside, stmt, _, stands, shapes,
    (performs stmt _ stands).2⟩

/-- A call under a cast is written as a cast, which is no statement. -/
theorem cast_performed :
    let source := "integer one() \x7b return 1; \x7d " ++
      "default \x7b state_entry() \x7b (string)one(); \x7d \x7d"
    let program := (checkSource .minimal source).value.program .minimal {}
    Accepted .minimal source ∧ ∃ method ∈ program.methods, ∃ stmt : CodeStmt,
      stmt.Stands method.body [method.body] ∧
        stmt.fragments .field 2 = [.indent 2, .text "(LSL_Types.LSLString)(", .text "FN_one(",
          .text ")", .text ")", .text ";\n"] ∧
        ∃ code ∈ stmt.performed, code.isPerformable = false := by
  intro source program
  have spelled : source = String.ofList _ := String.ofList_append.symm
  have facts : Accepted .minimal source ∧ ∃ method ∈ program.methods, ∃ stmt ∈ method.body,
      stmt.fragments .field 2 = [.indent 2, .text "(LSL_Types.LSLString)(", .text "FN_one(",
        .text ")", .text ")", .text ";\n"] ∧
      ∃ code ∈ stmt.performed, code.isPerformable = false := by
    simp only [Accepted, program, check_source_spelled spelled]
    decide +kernel
  obtain ⟨accepted, method, member, stmt, direct, written⟩ := facts
  exact ⟨accepted, method, member, stmt, .here direct, written⟩

end Lsl
