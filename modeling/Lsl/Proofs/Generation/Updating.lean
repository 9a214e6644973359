import Lsl.Proofs.Generation.Closure
import Lsl.Proofs.Generation.Emission

/-!
Assignments that compute with the old value. They set their target to what an operation makes of the
value and of the target, in this order; only an integer multiplied by a float goes another way.
-/

set_option autoImplicit false

namespace Lsl

/-- An integer is multiplied by a float in place, which is rounded. -/
def BinaryOperator.rounds (operator : BinaryOperator) (left right : ValueType) : Prop :=
  operator = .multiplyAssign ∧ left = .integer ∧ right = .float

/-- The new value is what the operation makes of the old one and the operand. The operand is all of
the first argument of a call, and the target is read as the second one. The method that is called is
there once, and it makes the operation. -/
structure Program.Applies (program : Program) (settings : Settings) (operation : Operation)
    (operand target computed : Code) : Prop where
  called : computed = .operate operation operand target
  lawful : operation.operator.result? operation.left operation.right = some operation.returns
  ordered : ∀ access, computed.fragments access =
    .text (operation.name ++ "(") :: operand.fragments access ++ [.text ","] ++
      target.fragments access ++ [.text ")"]
  defined : computed ∈ program.terms →
    program.operations.filter (·.name = operation.name) = [operation] ∧
      ∀ date, operation.fragments settings.keysAreStrings settings.depth <:+:
        program.fragments settings date

/-- An assignment that computes with the old value is written as one of two assignments. -/
theorem modifying_code (manner : Manner) (place : Place) (info : ExprInfo)
    {operator : BinaryOperator} (modifies : operator.isModifying = true) (left right : Expr) :
    (operator.rounds left.type right.type ∧
      (Expr.binary info operator left right).code manner place =
        .assign (left.code manner .operand)
          (.roundedProduct (left.code manner .operand) (right.code manner .operand))) ∨
    (¬ operator.rounds left.type right.type ∧
      ∃ operation, operator.called? left.type right.type (info.type.getD .void) = some operation ∧
        (Expr.binary info operator left right).code manner place =
          .assign (left.code manner .operand)
            (.operate operation (right.code manner .operand) (left.code manner .operand))) := by
  by_cases rounds : operator.rounds left.type right.type
  · refine .inl ⟨rounds, ?_⟩
    obtain ⟨rfl, integer, float⟩ := rounds
    simp [Expr.code, binaryCode, integer, float, BinaryOperator.isLogical]
  · refine .inr ⟨rounds, ?_⟩
    cases operator with
    | addAssign | subtractAssign | divideAssign | modulusAssign => exact ⟨_, rfl, rfl⟩
    | multiplyAssign =>
        have plain : ¬ (left.type = .integer ∧ right.type = .float) :=
          fun both => rounds ⟨rfl, both⟩
        simp [BinaryOperator.called?, Expr.code, binaryCode, plain, BinaryOperator.isLogical,
          BinaryOperator.isModifying]
    | _ => cases modifies

theorem BinaryOperator.target_type {operator : BinaryOperator} {left right type : ValueType}
    (modifies : operator.isModifying = true) (typed : operator.type? left right = some type) :
    type = left := by
  have assigns : operator.isAssignment = true := by simp [isAssignment, modifies]
  rw [type?, if_pos assigns] at typed
  unfold assignedResult? at typed
  split at typed
  · cases typed
  · split at typed
    · split at typed <;> cases typed
      rfl
    · split at typed
      · rename_i rounds
        cases typed
        exact rounds.2.1.symm
      · split at typed
        · split at typed <;> cases typed
          rfl
        · cases typed

/-- The operation that is called for an assignment has the operator without the assignment and the
types of target and operand, and it gives back what the target holds. -/
theorem modifying_operation {library : Library} {source : String}
    (accepted : Accepted library source) {info : ExprInfo} {operator : BinaryOperator}
    {left right : Expr}
    (member : .binary info operator left right ∈ (checkSource library source).value.nodes)
    (modifies : operator.isModifying = true) {operation : Operation}
    (called : operator.called? left.type right.type (info.type.getD .void) = some operation) :
    operation = ⟨left.type, operator.underlying, right.type, left.type⟩ ∧
      operation.operator.result? operation.left operation.right = some operation.returns := by
  have firm := (accepted.traced.node member).firm
  obtain ⟨result, typed, rfl, lawful⟩ := firm.called called
  have ruled : info.type = operator.type? left.type right.type := firm.ruled
  obtain rfl := BinaryOperator.target_type modifies (ruled.symm.trans typed)
  exact ⟨rfl, lawful⟩

/-- An operation that is called in the program of an accepted source is there once, and its method
is written. -/
theorem operation_defined {library : Library} {source : String}
    (accepted : Accepted library source) {settings : Settings} {operation : Operation}
    {operand target : Code}
    (called : .operate operation operand target ∈
      ((checkSource library source).value.program library settings).terms) :
    ((checkSource library source).value.program library settings).operations.filter
        (·.name = operation.name) = [operation] ∧
      ∀ date, operation.fragments settings.keysAreStrings settings.depth <:+:
        ((checkSource library source).value.program library settings).fragments settings date := by
  have member := Program.mem_operations.mpr ⟨operand, target, called⟩
  refine ⟨Script.operation_unique accepted.traced member, fun date => ?_⟩
  exact (separated_within (List.mem_map_of_mem member)).trans
    (((checkSource library source).value.program library settings).written settings date).operations

/-- How an accepted source assigns what it computes with the old value. The target is set to what
the operation without the assignment makes of it and the operand, which is computed first and stands
for itself between parenthesis and comma, and this has the type of the target. That is so exactly if
it is not an integer multiplied by a float, for which the target is read first and rounded by
itself, and the operand follows as it is. -/
theorem modifying_assignments_alike_iff {library : Library} {source : String}
    (accepted : Accepted library source) (settings : Settings) :
    let script := (checkSource library source).value
    let manner : Manner := ⟨library, settings, script.uses⟩
    let program := script.program library settings
    ∀ info operator left right, .binary info operator left right ∈ script.nodes →
      operator.isModifying = true → ∀ place,
      let target := left.code manner .operand
      let operand := right.code manner .operand
      ∃ computed,
        (Expr.binary info operator left right).code manner place = .assign target computed ∧
        (∀ access, (Code.assign target computed).fragments access =
          target.fragments access ++ [.text " = "] ++ computed.fragments access) ∧
        (program.Applies settings ⟨left.type, operator.underlying, right.type, left.type⟩ operand
          target computed ↔ ¬ operator.rounds left.type right.type) ∧
        (operator.rounds left.type right.type → ∀ access, computed.fragments access =
          .text ("new " ++ ValueType.integer.targetName false ++ "(System.Math.Round((double)") ::
            target.fragments access ++ [.text ") * "] ++ operand.fragments access ++
            [.text ")"]) := by
  intro script manner program info operator left right member modifies place target operand
  rcases modifying_code manner place info modifies left right with
    ⟨rounds, form⟩ | ⟨plain, operation, called, form⟩
  · refine ⟨_, form, fun access => rfl, ⟨?_, fun plain => absurd rounds plain⟩, fun _ access => rfl⟩
    exact fun applies => by cases applies.called
  · obtain ⟨rfl, lawful⟩ := modifying_operation accepted member modifies called
    refine ⟨_, form, fun access => rfl, iff_of_true ?_ plain, fun rounds => absurd rounds plain⟩
    exact ⟨rfl, lawful, fun access => rfl, fun written => operation_defined accepted written⟩

def Expr.applied? : Expr → Option (BinaryOperator × ValueType × ValueType)
  | binary _ operator left right => some (operator, left.type, right.type)
  | _ => none

theorem Expr.binary_of_applied {node : Expr} {operator : BinaryOperator} {left right : ValueType}
    (applied : node.applied? = some (operator, left, right)) :
    ∃ info first second, node = .binary info operator first second ∧ first.type = left ∧
      second.type = right := by
  cases node with
  | binary info other first second =>
      cases applied
      exact ⟨info, first, second, rfl, rfl, rfl⟩
  | _ => cases applied

/-- A vector is turned by a rotation that is assigned on the way. -/
theorem turned_vector_alike :
    let source := "default \x7b state_entry() \x7b vector v = <1, 0, 0>; rotation r; " ++
      "v *= r = <0, 0, 0, 1>; \x7d \x7d"
    let script := (checkSource .minimal source).value
    let manner : Manner := ⟨.minimal, {}, script.uses⟩
    let program := script.program .minimal {}
    Accepted .minimal source ∧ program.operations = [⟨.vector, .multiply, .rotation, .vector⟩] ∧
      ∃ info left right, .binary info .multiplyAssign left right ∈ script.nodes ∧ ∃ computed,
        (Expr.binary info .multiplyAssign left right).code manner .statement =
          .assign (left.code manner .operand) computed ∧
        program.Applies {} ⟨left.type, .multiply, right.type, left.type⟩
          (right.code manner .operand) (left.code manner .operand) computed := by
  intro source script manner program
  have spelled : source = String.ofList _ := String.ofList_append.symm
  have facts : Accepted .minimal source ∧
      program.operations = [⟨.vector, .multiply, .rotation, .vector⟩] ∧
      ∃ node ∈ script.nodes, node.applied? = some (.multiplyAssign, .vector, .rotation) := by
    simp only [Accepted, program, script, check_source_spelled spelled]
    decide +kernel
  obtain ⟨accepted, operations, node, member, applied⟩ := facts
  obtain ⟨info, left, right, rfl, vector, _⟩ := Expr.binary_of_applied applied
  obtain ⟨computed, form, -, applies, -⟩ :=
    modifying_assignments_alike_iff accepted {} info _ left right member rfl .statement
  refine ⟨accepted, operations, info, left, right, member, computed, form, applies.mpr ?_⟩
  exact fun rounds => by cases vector.symm.trans rounds.2.1

/-- The target is read and rounded in front of the operand, whose own assignment is left without
parentheses. -/
theorem rounded_target_first :
    let source := "default \x7b state_entry() \x7b integer i = 3; float f; i *= f = 0.5; \x7d \x7d"
    let script := (checkSource .minimal source).value
    let manner : Manner := ⟨.minimal, {}, script.uses⟩
    let program := script.program .minimal {}
    Accepted .minimal source ∧
      (∃ method ∈ program.methods, ∃ stmt ∈ method.body, stmt.fragments .field 2 =
        [.indent 2, .text "LV1024_i", .text " = ",
          .text "new LSL_Types.LSLInteger(System.Math.Round((double)", .text "LV1024_i",
          .text ") * ", .text "LV1024_f", .text " = ", .text "0.5", .text ")", .text ";\n"]) ∧
      ∃ info left right, .binary info .multiplyAssign left right ∈ script.nodes ∧ ∃ computed,
        (Expr.binary info .multiplyAssign left right).code manner .statement =
          .assign (left.code manner .operand) computed ∧
        ∀ operation, ¬ program.Applies {} operation
          (right.code manner .operand) (left.code manner .operand) computed := by
  intro source script manner program
  have spelled : source = String.ofList _ := rfl
  have facts : Accepted .minimal source ∧
      (∃ method ∈ program.methods, ∃ stmt ∈ method.body, stmt.fragments .field 2 =
        [.indent 2, .text "LV1024_i", .text " = ",
          .text "new LSL_Types.LSLInteger(System.Math.Round((double)", .text "LV1024_i",
          .text ") * ", .text "LV1024_f", .text " = ", .text "0.5", .text ")", .text ";\n"]) ∧
      ∃ node ∈ script.nodes, node.applied? = some (.multiplyAssign, .integer, .float) := by
    simp only [Accepted, program, script, check_source_spelled spelled]
    decide +kernel
  obtain ⟨accepted, written, node, member, applied⟩ := facts
  obtain ⟨info, left, right, rfl, integer, float⟩ := Expr.binary_of_applied applied
  refine ⟨accepted, written, info, left, right, member, ?_⟩
  have modifies : BinaryOperator.multiplyAssign.isModifying = true := rfl
  rcases modifying_code manner .statement info modifies left right with ⟨_, form⟩ | ⟨plain, _⟩
  · exact ⟨_, form, fun operation applies => by cases applies.called⟩
  · exact absurd ⟨rfl, integer, float⟩ plain

end Lsl
