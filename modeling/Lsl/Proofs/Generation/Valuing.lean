import Lsl.Proofs.Checking.Valued
import Lsl.Proofs.Generation.Performing

/-!
Values in generated code. Whatever is written where a value is needed has one, but for two things
whose type nothing asks for: what stands in the parentheses that are a whole statement, and what a
handler returns.
-/

set_option autoImplicit false

namespace Lsl

/-- What is given to a helper to make a statement of an expression. -/
def Expr.forced : Expr → List Expr
  | grouped _ inner => [inner]
  | prefixed info operator operand =>
    if operator.isStep || operator.isCalled operand.type then []
    else [prefixed info operator operand]
  | _ => []

namespace Stmt

/-- The expressions of a statement whose values it takes for what it does. -/
def taken (manner : Manner) : Stmt → List Expr
  | perform _ value => if value.hasEffects then value.forced else []
  | forLoop _ _ condition _ _ _ => condition.toList
  | stmt => stmt.written manner

/-- The expressions in the code of a statement itself that stand where a value is needed. -/
def values (manner : Manner) (stmt : Stmt) : List Expr :=
  stmt.taken manner ++ (Expr.listNodes (stmt.written manner)).flatMap Expr.operands

/-- What is in the parentheses that are all of a statement. -/
def lone : Stmt → List Expr
  | perform _ (.grouped _ inner) => if inner.hasEffects then [inner] else []
  | _ => []

def returned : Stmt → List Expr
  | giveBack _ value => value.toList
  | _ => []

end Stmt

def CodeScope.values (manner : Manner) (body : CodeScope) : List Expr :=
  (Stmt.liveStatements body.body).flatMap (Stmt.values manner)

namespace Script

variable (script : Script)

/-- The first values of the globals that have a part in the program. -/
def initialValues : List Expr :=
  (script.globals.filter (Use.isUsed script.uses ·.start)).flatMap (·.decl.initializer.toList)

/-- The expressions in the code of a script that stand where a value is needed. -/
def values (manner : Manner) : List Expr :=
  script.initialValues ++ (Expr.listNodes script.initialValues).flatMap Expr.operands ++
    script.writtenBodies.flatMap (CodeScope.values manner)

/-- Those whose type nothing asks for. -/
def unasked : List Expr :=
  script.writtenBodies.flatMap (fun body => (Stmt.liveStatements body.body).flatMap Stmt.lone) ++
    script.allStates.flatMap fun state => state.bodies.flatMap fun body =>
      (Stmt.liveStatements body.body).flatMap Stmt.returned

end Script

namespace Expr

theorem operand_valued {exprs : List Expr} (valued : ∀ expr ∈ exprs, expr.IsValued) {value : Expr}
    (member : value ∈ (listNodes exprs).flatMap operands) :
    value.type?.isSome = true ∧ value.type ≠ .void := by
  rw [list_nodes_eq] at member
  obtain ⟨node, inside, operand⟩ := List.mem_flatMap.mp member
  obtain ⟨expr, known, inside⟩ := List.mem_flatMap.mp inside
  have part := mem_nodes_of_node inside (node.operands_subset operand)
  exact ⟨(valued expr known value part).typed,
    (valued expr known node inside).operands value operand⟩

end Expr

namespace Stmt

variable {manner : Manner} {stmt : Stmt}

theorem lone_taken : stmt.lone ⊆ stmt.taken manner := by
  cases stmt with
  | perform info value =>
      cases value with
      | grouped span inner => exact List.Subset.refl _
      | _ => exact List.nil_subset _
  | _ => exact List.nil_subset _

theorem returned_taken : stmt.returned ⊆ stmt.taken manner := by
  cases stmt with
  | giveBack info value => exact List.Subset.refl _
  | _ => exact List.nil_subset _

theorem forced_taken {value forced : Expr} (performs : (.statement, value) ∈ stmt.performed)
    (given : forced ∈ value.forced) : forced ∈ stmt.taken manner := by
  cases stmt with
  | perform info expr =>
      obtain ⟨found, member, same⟩ := List.mem_map.mp performs
      obtain ⟨-, rfl⟩ := Prod.mk.inj same
      obtain ⟨own, effects⟩ := List.mem_filter.mp member
      obtain rfl := List.mem_singleton.mp own
      rw [taken, if_pos effects]
      exact given
  | forLoop info init condition afterthought scope body =>
      obtain ⟨found, member, same⟩ := List.mem_map.mp performs
      cases (Prod.mk.inj same).1
  | _ => cases performs

/-- A statement takes values, except where nothing asks for them. -/
theorem taken_valued {owner : Owner} (valued : ∀ expr ∈ stmt.exprs, expr.IsValued)
    (fits : stmt.Fits owner) {value : Expr} (member : value ∈ stmt.taken manner) :
    value.type?.isSome = true ∧ (value.type ≠ .void ∨ value ∈ stmt.lone ∨
      (∃ event, owner = .handler event) ∧ value ∈ stmt.returned) := by
  cases stmt with
  | perform info expr =>
      have own := valued expr List.mem_cons_self
      rw [taken] at member
      split at member
      · rename_i effects
        cases expr with
        | grouped span inner =>
            obtain rfl := List.mem_singleton.mp member
            have part : value ∈ (Expr.grouped span value).parts := List.mem_cons_self
            have inside := Expr.mem_nodes_of_part part value.mem_nodes_self
            refine ⟨(own value inside).typed, .inr (.inl ?_)⟩
            simpa [lone, Expr.hasEffects] using effects
        | prefixed span operator operand =>
            rw [Expr.forced] at member
            split at member
            · cases member
            · obtain rfl := List.mem_singleton.mp member
              exact ⟨own.typed, .inl ((own _ (Expr.mem_nodes_self _)).prefixed _ _ _ rfl)⟩
        | _ => cases member
      · cases member
  | declare info decl =>
      have given := written_subset manner (.declare info decl) member
      exact ⟨(valued value given).typed, .inl (ValueType.valued_of_converts
        (fits value (Option.mem_toList.mp given)))⟩
  | giveBack info given =>
      refine ⟨(valued value member).typed, ?_⟩
      obtain rfl := Option.mem_toList.mp member
      cases owner with
      | handler event => exact .inr (.inr ⟨⟨event, rfl⟩, member⟩)
      | function name returns => exact .inl (ValueType.valued_of_converts fits)
  | branch info first condition scope body rest =>
      exact ⟨(valued value member).typed, .inl (fits value member)⟩
  | whileLoop info condition scope body | doLoop info scope body condition =>
      obtain rfl := List.mem_singleton.mp member
      exact ⟨(valued value member).typed, .inl fits⟩
  | forLoop info init condition afterthought scope body =>
      have given := Option.mem_toList.mp member
      refine ⟨(valued value ?_).typed, .inl (fits value given)⟩
      exact List.mem_append_left _ (List.mem_append_right _ member)
  | _ => cases member

end Stmt

/-- The code gives its only argument to the helper that makes a statement of it. -/
def Code.isForced : Code → Bool
  | invoke callee _ => callee == .utility "ForceStatement"
  | _ => false

section

variable {manner : Manner} {around : Surroundings}

theorem binary_unforced (place : Place) (info : ExprInfo) (operator : BinaryOperator)
    (left right : Expr) :
    ((Expr.binary info operator left right).code manner place).isForced = false := by
  cases operator with
  | multiplyAssign =>
      obtain ⟨value, form⟩ := @assignment_code manner .multiplyAssign rfl (info.type.getD .void)
        left right (left.code manner .operand) (right.code manner .operand)
      rw [Expr.code]
      exact congrArg Code.isForced form
  | _ => rfl

theorem call_unforced {target : CallTarget} (known : target.IsKnown manner.library around)
    (name : String) (arguments : List Code) :
    (callCode manner name target arguments).isForced = false := by
  obtain ⟨callee, own, form⟩ := call_code_known known name arguments
  rw [form]
  cases callee with
  | utility helper => cases own
  | _ => rfl

theorem cast_unforced (target : ValueType) (operand : Expr) {code : Code}
    (unforced : code.isForced = false) :
    (castCode manner target operand code).isForced = false := by
  unfold castCode
  dsimp only
  split
  · exact unforced
  · split <;> rfl

theorem prefixed_unforced {place : Place} (apart : place ≠ .statement) (operator : PrefixOperator)
    (operand : ValueType) (code : Code) :
    (prefixedCode place operator operand code).isForced = false := by
  unfold prefixedCode
  dsimp only
  rw [if_neg apart]
  cases operator <;> cases operand <;> cases place <;> rfl

theorem prefixed_forced {operator : PrefixOperator} {operand : ValueType} {code argument : Code}
    (forces : prefixedCode .statement operator operand code =
      .invoke (.utility "ForceStatement") [argument]) :
    (operator.isStep || operator.isCalled operand) = false ∧
      argument = prefixedCode .element operator operand code := by
  have called : operator.isCalled operand = true ↔
      operand = .rotation ∨ (operand = .vector ∧ operator = .negate) := by
    simp [PrefixOperator.isCalled]
  unfold prefixedCode at forces ⊢
  by_cases calls : operand = .rotation ∨ (operand = .vector ∧ operator = .negate)
  · simp [calls] at forces
  · have quiet : operator.isCalled operand = false := by
      rw [← Bool.not_eq_true, called]
      exact calls
    rw [quiet]
    cases step : operator.isStep with
    | true => simp [calls, step] at forces
    | false =>
        simp only [calls, step, if_false, if_true, Bool.false_eq_true, Code.invoke.injEq,
          true_and, List.cons.injEq, and_true] at forces
        simp [calls, forces, Place.isListed]

namespace Expr

theorem unforced {expr : Expr} (effects : expr.hasEffects = true)
    (linked : ∀ node ∈ expr.nodes, node.IsLinked manner.library around) {place : Place}
    (apart : place ≠ .statement) : (expr.code manner place).isForced = false := by
  induction expr using parts_induction generalizing place with
  | step expr induction =>
      have inner {part : Expr} (member : part ∈ expr.parts) (effects : part.hasEffects = true) :
          (part.code manner .elsewhere).isForced = false :=
        induction part member effects
          (fun node inside => linked node (mem_nodes_of_part member inside)) (by decide)
      cases expr with
      | integer | hex | float | string | reference => cases effects
      | vector | rotation | list | component => rfl
      | call info name span arguments target =>
          exact call_unforced (linked _ (mem_nodes_self _)) name _
      | binary info operator left right => exact binary_unforced place info operator left right
      | prefixed info operator operand => exact prefixed_unforced apart operator operand.type _
      | postfixed info operator operand =>
          rw [code, postfixedCode]
          split <;> rfl
      | cast info target operand =>
          exact cast_unforced target operand (inner List.mem_cons_self effects)
      | grouped info operand =>
          rw [code, groupedCode, if_neg apart]
          split
          · exact inner List.mem_cons_self effects
          · rfl

theorem forced_code {expr : Expr} (effects : expr.hasEffects = true)
    (linked : ∀ node ∈ expr.nodes, node.IsLinked manner.library around) {place : Place}
    {argument : Code}
    (forces : expr.code manner place = .invoke (.utility "ForceStatement") [argument]) :
    place = .statement ∧ ∃ value ∈ expr.forced, ∃ inner, argument = value.code manner inner := by
  have given : (expr.code manner place).isForced = true := by
    rw [forces]
    rfl
  have stated : place = .statement := by
    by_contra apart
    cases (unforced effects linked apart).symm.trans given
  subst stated
  have elsewhere : (expr.code manner .elsewhere).isForced = false :=
    unforced effects linked (by decide)
  refine ⟨rfl, ?_⟩
  cases expr with
  | integer | hex | float | string | reference => cases effects
  | grouped info inner =>
      cases forces
      exact ⟨inner, List.mem_cons_self, .elsewhere, rfl⟩
  | prefixed info operator operand =>
      obtain ⟨plain, same⟩ := prefixed_forced forces
      refine ⟨prefixed info operator operand, ?_, .element, same⟩
      rw [forced, plain]
      exact List.mem_cons_self
  | postfixed info operator operand => cases forces
  | _ => cases elsewhere.symm.trans given

end Expr

end

namespace Script

variable {script : Script} {manner : Manner}

theorem value_of_statement {body : CodeScope} (written : body ∈ script.writtenBodies) {stmt : Stmt}
    (live : stmt ∈ Stmt.liveStatements body.body) {value : Expr}
    (member : value ∈ stmt.taken manner) : value ∈ script.values manner :=
  List.mem_append_right _ (List.mem_flatMap.mpr ⟨body, written,
    List.mem_flatMap.mpr ⟨stmt, live, List.mem_append_left _ member⟩⟩)

theorem unasked_subset : script.unasked ⊆ script.values manner := by
  intro value member
  rcases List.mem_append.mp member with member | member
  · obtain ⟨body, written, member⟩ := List.mem_flatMap.mp member
    obtain ⟨stmt, live, own⟩ := List.mem_flatMap.mp member
    exact value_of_statement written live (Stmt.lone_taken own)
  · obtain ⟨state, known, member⟩ := List.mem_flatMap.mp member
    obtain ⟨body, inside, member⟩ := List.mem_flatMap.mp member
    obtain ⟨stmt, live, own⟩ := List.mem_flatMap.mp member
    have written : body ∈ script.writtenBodies :=
      List.mem_append_right _ (List.mem_flatMap.mpr ⟨state, known, inside⟩)
    exact value_of_statement written live (Stmt.returned_taken own)

end Script

section

variable {library : Library} {source : String} (wellFormed : library.WellFormed)
  (accepted : Accepted library source)

include wellFormed accepted

theorem written_body_valued {body : CodeScope}
    (written : body ∈ (checkSource library source).value.writtenBodies) :
    ∃ owner,
      (∀ stmt ∈ Stmt.listStatements body.body,
        (∀ expr ∈ stmt.exprs, expr.IsValued) ∧ stmt.Fits owner) ∧
      ((∃ event, owner = .handler event) →
        ∃ state ∈ (checkSource library source).value.allStates, body ∈ state.bodies) := by
  rcases List.mem_append.mp written with member | member
  · obtain ⟨decl, inside, rfl⟩ := List.mem_map.mp member
    refine ⟨.function decl.name decl.returns, fun stmt inner => ?_, by simp⟩
    exact accepted.statement_valued wellFormed
      (accepted.function_passed (List.mem_of_mem_filter inside)) inner
  · obtain ⟨state, known, inside⟩ := List.mem_flatMap.mp member
    obtain ⟨decl, handler, rfl⟩ := StateDecl.handler_of_body inside
    refine ⟨.handler decl.name, fun stmt inner => ?_, fun _ => ⟨state, known, inside⟩⟩
    exact accepted.statement_valued wellFormed (accepted.handler_passed known handler) inner

theorem initial_values_valued :
    ∀ value ∈ (checkSource library source).value.initialValues,
      value.IsValued ∧ value.type ≠ .void := by
  intro value member
  obtain ⟨global, known, given⟩ := List.mem_flatMap.mp member
  exact accepted.initializer_valued wellFormed (List.mem_of_mem_filter known)
    (Option.mem_toList.mp given)

theorem value_valued {manner : Manner} {value : Expr}
    (member : value ∈ (checkSource library source).value.values manner) :
    value.type?.isSome = true ∧
      (value.type = .void → value ∈ (checkSource library source).value.unasked) := by
  have initial := initial_values_valued wellFormed accepted
  rcases List.mem_append.mp member with member | member
  · rcases List.mem_append.mp member with member | member
    · obtain ⟨valued, given⟩ := initial value member
      exact ⟨valued.typed, fun nothing => absurd nothing given⟩
    · obtain ⟨typed, given⟩ := Expr.operand_valued (fun expr known => (initial expr known).1) member
      exact ⟨typed, fun nothing => absurd nothing given⟩
  · obtain ⟨body, written, member⟩ := List.mem_flatMap.mp member
    obtain ⟨stmt, live, member⟩ := List.mem_flatMap.mp member
    obtain ⟨owner, meets, handled⟩ := written_body_valued wellFormed accepted written
    obtain ⟨valued, fits⟩ := meets stmt (List.mem_of_mem_filter live)
    rcases List.mem_append.mp member with taken | operand
    · obtain ⟨typed, given⟩ := Stmt.taken_valued valued fits taken
      refine ⟨typed, fun nothing => ?_⟩
      rcases given with given | lone | ⟨event, returned⟩
      · exact absurd nothing given
      · exact List.mem_append_left _ (List.mem_flatMap.mpr ⟨body, written,
          List.mem_flatMap.mpr ⟨stmt, live, lone⟩⟩)
      · obtain ⟨state, known, inside⟩ := handled event
        exact List.mem_append_right _ (List.mem_flatMap.mpr ⟨state, known,
          List.mem_flatMap.mpr ⟨body, inside, List.mem_flatMap.mpr ⟨stmt, live, returned⟩⟩⟩)
    · obtain ⟨typed, given⟩ := Expr.operand_valued
        (fun expr known => valued expr (Stmt.written_subset manner stmt known)) operand
      exact ⟨typed, fun nothing => absurd nothing given⟩

end

/-- Where a value is needed in the code of an accepted source there is an expression with a type. It
is void only if nothing asks for its type, so that none is void exactly if none of those in the
parentheses of a whole statement is and none that a handler returns. What the helper for statements
is given is the code of one of these expressions. -/
theorem values_valued_iff {library : Library} {source : String}
    (wellFormed : library.WellFormed) (accepted : Accepted library source) (settings : Settings) :
    let script := (checkSource library source).value
    let manner : Manner := ⟨library, settings, script.uses⟩
    let program := script.program library settings
    (∀ value ∈ script.values manner, value.type?.isSome = true ∧
      (value.type = .void → value ∈ script.unasked)) ∧
    ((∀ value ∈ script.values manner, value.type ≠ .void) ↔
      ∀ value ∈ script.unasked, value.type ≠ .void) ∧
    ∀ method ∈ program.methods, ∀ (stmt : CodeStmt) scopes, stmt.Stands method.body scopes →
      ∀ argument, .invoke (.utility "ForceStatement") [argument] ∈ stmt.performed →
        ∃ value ∈ script.values manner, ∃ place, argument = value.code manner place := by
  intro script manner program
  refine ⟨fun value member => value_valued wellFormed accepted member, ⟨?_, ?_⟩, ?_⟩
  · exact fun given value member => given value (Script.unasked_subset member)
  · intro given value member nothing
    exact given value ((value_valued wellFormed accepted member).2 nothing) nothing
  · intro method member stmt scopes stands argument performs
    obtain ⟨body, written, around, performed⟩ :=
      Script.source_of_performed wellFormed accepted settings member
    obtain ⟨found, live, origin⟩ := performed stmt scopes stands _ performs
    rcases origin with ⟨info, value, rfl, same⟩ | ⟨place, value, own, same, linked⟩
    · cases same
      exact ⟨value, Script.value_of_statement written live List.mem_cons_self, .elsewhere, rfl⟩
    · obtain ⟨-, effects, -⟩ := Stmt.performed_effects own
      obtain ⟨stated, forced, given, inner, equal⟩ :=
        @Expr.forced_code manner around value effects linked place argument same.symm
      subst stated
      exact ⟨forced, Script.value_of_statement written live (Stmt.forced_taken own given), inner,
        equal⟩

/-- A statement in parentheses and a return from a handler, both with a value. -/
theorem asked_values_valued :
    let source := "integer n = -2; integer twice(integer k) \x7b return k + k; \x7d " ++
      "default \x7b state_entry() \x7b if (twice(n) > 3) (twice(n)); return (string)n; \x7d \x7d"
    let script := (checkSource .small source).value
    let manner : Manner := ⟨.small, {}, script.uses⟩
    Library.small.WellFormed ∧ Accepted .small source ∧
      script.unasked.map Expr.type = [.integer, .string] ∧
      (script.values manner).length = 13 ∧ ∀ value ∈ script.values manner, value.type ≠ .void := by
  intro source script manner
  have wellFormed : Library.small.WellFormed := ⟨by decide +kernel, by decide +kernel⟩
  have spelled : source = String.ofList _ := String.ofList_append.symm
  have facts : Accepted .small source ∧ script.unasked.map Expr.type = [.integer, .string] ∧
      (script.values manner).length = 13 := by
    simp only [Accepted, manner, script, check_source_spelled spelled]
    decide +kernel
  obtain ⟨accepted, types, count⟩ := facts
  refine ⟨wellFormed, accepted, types, count, ?_⟩
  refine (values_valued_iff wellFormed accepted {}).2.1.mpr fun value member nothing => ?_
  have among := @List.mem_map_of_mem _ _ _ _ Expr.type member
  rw [types, nothing] at among
  simp at among

/-- A call that gives nothing back is given to the helper as if it were a value. -/
theorem void_forced :
    let source := "idle() \x7b \x7d default \x7b state_entry() \x7b (idle()); \x7d \x7d"
    let script := (checkSource .minimal source).value
    let manner : Manner := ⟨.minimal, {}, script.uses⟩
    Accepted .minimal source ∧ (∃ value ∈ script.values manner, value.type? = some .void) ∧
      ∃ method ∈ (script.program .minimal {}).methods, ∃ stmt ∈ method.body,
        stmt.fragments .field 2 = [.indent 2, .text "UTILITIES.ForceStatement(", .text "FN_idle(",
          .text ")", .text ")", .text ";\n"] := by
  intro source script manner
  have spelled : source = String.ofList _ := rfl
  simp only [Accepted, manner, script, check_source_spelled spelled]
  decide +kernel

end Lsl
