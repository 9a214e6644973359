import Lsl.Proofs.Generation.Progress
import Mathlib.Data.List.Perm.Basic

/-!
What the code of an expression does. Its effects are those of the nodes of the expression, once
each; so are its operations, apart from those that compound assignments bring along.
-/

set_option autoImplicit false

namespace Lsl

namespace Code

def isAct (code : Code) : Bool := code.isEffect || code.isOperation

/-- The effects and operations of a code. -/
def acts (code : Code) : List Code := code.terms.filter isAct

theorem acts_eq (code : Code) :
    code.acts = (if code.isAct then [code] else []) ++ code.parts.flatMap acts := by
  rw [acts, terms_eq, List.filter_cons, List.filter_flatMap]
  split <;> rfl

theorem acts_of_parts {code : Code} (plain : code.isAct = false) :
    code.acts = code.parts.flatMap acts := by
  rw [acts_eq, plain]
  rfl

theorem acts_of_act {code : Code} (act : code.isAct = true) :
    code.acts = code :: code.parts.flatMap acts := by
  rw [acts_eq, act]
  rfl

theorem flat_map_pair {α β : Type} (given : α → List β) (first second : α) :
    [first, second].flatMap given = given first ++ given second := by
  simp

@[simp] theorem acts_plain (text : String) : (plain text).acts = [] := rfl

@[simp] theorem acts_fault (reason : String) : (fault reason).acts = [] := rfl

@[simp] theorem acts_global (name : String) : (global name).acts = [] := rfl

@[simp] theorem acts_create (type separator : String) (arguments : List Code) :
    (create type separator arguments).acts = arguments.flatMap acts :=
  acts_of_parts rfl

@[simp] theorem acts_utility (name : String) (arguments : List Code) :
    (invoke (.utility name) arguments).acts = arguments.flatMap acts :=
  acts_of_parts rfl

@[simp] theorem acts_operate (operation : Operation) (right left : Code) :
    (operate operation right left).acts =
      operate operation right left :: (right.acts ++ left.acts) :=
  (acts_of_act rfl).trans (congrArg (List.cons _) (flat_map_pair acts right left))

@[simp] theorem acts_logical (symbol : String) (right left : Code) :
    (logical symbol right left).acts = logical symbol right left :: (right.acts ++ left.acts) :=
  (acts_of_act rfl).trans (congrArg (List.cons _) (flat_map_pair acts right left))

@[simp] theorem acts_assign (target value : Code) :
    (assign target value).acts = assign target value :: (target.acts ++ value.acts) :=
  (acts_of_act rfl).trans (congrArg (List.cons _) (flat_map_pair acts target value))

@[simp] theorem acts_rounded_product (target factor : Code) :
    (roundedProduct target factor).acts = target.acts ++ factor.acts :=
  (acts_of_parts rfl).trans (flat_map_pair acts target factor)

@[simp] theorem acts_behind (operand : Code) (symbol : String) :
    (behind operand symbol).acts = behind operand symbol :: operand.acts :=
  (acts_of_act rfl).trans (congrArg (List.cons _) (List.flatMap_singleton ..))

@[simp] theorem acts_convert (type : String) (operand : Code) :
    (convert type operand).acts = operand.acts :=
  (acts_of_parts rfl).trans (List.flatMap_singleton ..)

@[simp] theorem acts_grouped (inner : Code) : (grouped inner).acts = inner.acts :=
  (acts_of_parts rfl).trans (List.flatMap_singleton ..)

@[simp] theorem acts_component (target : Code) (name : String) :
    (component target name).acts = target.acts :=
  (acts_of_parts rfl).trans (List.flatMap_singleton ..)

/-- A step is an effect, any other operator in front of its operand is none. -/
theorem acts_before (operator : PrefixOperator) (operand : Code) :
    (before operator.symbol operand).acts =
      if operator.isStep then before operator.symbol operand :: operand.acts
      else operand.acts := by
  cases operator <;>
    simp [acts_eq, isAct, isEffect, isOperation, parts, PrefixOperator.symbol,
      PrefixOperator.isStep]

@[simp] theorem acts_literal (place : Place) (kind : LiteralKind) (text : String) :
    (literalCode place kind text).acts = [] := by
  unfold literalCode
  split <;> simp

end Code

/-- Where the operands of an operator stand. -/
def BinaryOperator.operandPlace (operator : BinaryOperator) : Place :=
  if operator.isLogical then .logicalOperand else .operand

namespace Expr

/-- An operator that assigns nothing combines its operands, the right one first. -/
theorem combined_code (manner : Manner) (place : Place) {operator : BinaryOperator}
    (plain : operator.isAssignment = false) (info : ExprInfo) (left right : Expr) :
    (∃ symbol, (binary info operator left right).code manner place =
        .logical symbol (right.code manner operator.operandPlace)
          (left.code manner operator.operandPlace)) ∨
      ∃ operation, (binary info operator left right).code manner place =
        .operate operation (right.code manner operator.operandPlace)
          (left.code manner operator.operandPlace) := by
  rw [code]
  cases operator with
  | logicalAnd | logicalOr => exact .inl ⟨_, rfl⟩
  | assign | addAssign | subtractAssign | multiplyAssign | divideAssign | modulusAssign =>
      cases plain
  | _ => exact .inr ⟨_, rfl⟩

/-- Evaluating the node itself changes something, whatever its parts do. -/
def isEffect : Expr → Bool
  | call _ _ _ _ _ => true
  | binary _ operator _ _ => operator.isAssignment
  | prefixed _ operator _ => operator.isStep
  | postfixed _ _ _ => true
  | _ => false

/-- The operation that the node calls. A compound assignment computes its value by one, unless it
rounds a product. -/
def operation? (manner : Manner) : Expr → Option Code
  | binary info operator left right =>
    if operator.isModifying then
      if operator = .multiplyAssign ∧ left.type = .integer ∧ right.type = .float then none
      else
        let plain := operator.underlying
        let returns := (plain.result? left.type right.type).getD (info.type.getD .void)
        some (.operate ⟨left.type, plain, right.type, returns⟩ (right.code manner .operand)
          (left.code manner .operand))
    else if operator = .assign then none
    else some ((binary info operator left right).code manner .statement)
  | _ => none

/-- What the node does by itself. -/
def acts (manner : Manner) (node : Expr) : List Code :=
  (if node.isEffect then [node.code manner .statement] else []) ++ (node.operation? manner).toList

theorem acts_nodes (manner : Manner) (expr : Expr) :
    expr.nodes.flatMap (acts manner) =
      expr.acts manner ++ expr.parts.flatMap fun part => part.nodes.flatMap (acts manner) := by
  rw [nodes_eq, List.flatMap_cons, List.flatMap_assoc]

theorem has_effects_list_iff {exprs : List Expr} :
    anyHasEffects exprs = true ↔ ∃ expr ∈ exprs, expr.hasEffects = true := by
  induction exprs with
  | nil => simp [anyHasEffects]
  | cons expr rest induction => simp [anyHasEffects, induction]

theorem has_effects_of_parts (expr : Expr) :
    expr.hasEffects = true ↔
      expr.isEffect = true ∨ ∃ part ∈ expr.parts, part.hasEffects = true := by
  cases expr <;>
    simp [hasEffects, isEffect, parts, has_effects_list_iff, or_assoc]

theorem numeric_of_step {info : ExprInfo} {operator : PrefixOperator} {operand : Expr}
    (proper : (prefixed info operator operand).isProper = true) (step : operator.isStep = true) :
    operand.type.isNumeric = true := by
  simp only [isProper, step, Bool.not_true, Bool.false_or, Bool.and_eq_true] at proper
  exact proper.2

/-- An expression has effects if one of its nodes is one. -/
theorem has_effects_iff {expr : Expr} :
    expr.hasEffects = true ↔ ∃ node ∈ expr.nodes, node.isEffect = true := by
  induction expr using parts_induction with
  | step expr induction =>
      rw [has_effects_of_parts, nodes_eq]
      simp only [List.exists_mem_cons_iff, List.mem_flatMap]
      refine or_congr_right ?_
      constructor
      · rintro ⟨part, member, some⟩
        obtain ⟨node, inside, effect⟩ := (induction part member).mp some
        exact ⟨node, ⟨part, member, inside⟩, effect⟩
      · rintro ⟨node, ⟨part, member, inside⟩, effect⟩
        exact ⟨part, member, (induction part member).mpr ⟨node, inside, effect⟩⟩

end Expr

section

variable {manner : Manner}

@[simp] theorem acts_constant (settings : Settings) (constant : LibraryConstant) :
    (constantCode settings constant).acts = [] := by
  unfold constantCode
  split
  · split <;> simp
  · simp

@[simp] theorem acts_reference (name : String) (binding : Binding) :
    (referenceCode manner name binding).acts = [] := by
  cases binding with
  | constant =>
      unfold referenceCode
      dsimp only
      split <;> simp
  | _ => simp [referenceCode]

/-- What is assigned to does nothing by itself, so it does not matter how often it is written. -/
theorem acts_assignable {expr : Expr} (assignable : expr.isAssignable = true)
    (proper : expr.isProper = true) (place : Place) : (expr.code manner place).acts = [] := by
  cases expr with
  | reference info name binding => exact acts_reference name binding
  | component info part target =>
      cases target with
      | reference inner name binding => simp [Expr.code]
      | _ => cases proper
  | _ => cases assignable

/-- A text that is stored as a key is no effect either way. -/
theorem acts_stored (target : ValueType) (value : Expr) (place : Place) :
    (storedCode manner target value (value.code manner place)).acts =
      (value.code manner place).acts := by
  unfold storedCode
  split
  · rfl
  · split
    · simp [Expr.code, stringCode]
    · simp

theorem acts_cast (target : ValueType) (operand : Expr) (place : Place) :
    (castCode manner target operand (operand.code manner place)).acts =
      (operand.code manner place).acts := by
  unfold castCode
  dsimp only
  split
  · rfl
  · split
    · split <;> simp [Expr.code, stringCode]
    · simp

theorem acts_condition (condition : Expr) :
    (conditionCode manner condition).acts = (condition.code manner .elsewhere).acts := by
  unfold conditionCode
  dsimp only
  split
  · cases literal : castLiteral? condition with
    | none => simp
    | some text =>
        unfold castLiteral? at literal
        split at literal
        · rw [Expr.code, acts_cast]
          simp [Expr.code, stringCode]
        · cases literal
  · split <;> simp

theorem acts_postfixed (place : Place) (operator : PostfixOperator) (code : Code) :
    (postfixedCode place operator code).acts = .behind code operator.symbol :: code.acts := by
  unfold postfixedCode
  dsimp only
  split <;> simp

theorem acts_grouped (place : Place) (code : Code) : (groupedCode place code).acts = code.acts := by
  unfold groupedCode
  split
  · simp
  · split <;> simp

theorem step_code {operator : PrefixOperator} (step : operator.isStep = true)
    {operand : ValueType} (numeric : operand.isNumeric = true) (place : Place) (code : Code) :
    prefixedCode place operator operand code =
      if place = .statement ∨ place.isListed then .before operator.symbol code
      else .grouped (.before operator.symbol code) := by
  have plain : ¬ (operand = .rotation ∨ (operand = .vector ∧ operator = .negate)) := by
    rintro (rfl | ⟨rfl, _⟩) <;> cases numeric
  simp only [prefixedCode, if_neg plain, step, if_true]
  by_cases alone : place = .statement
  · simp [alone]
  · simp [alone]

theorem acts_step {operator : PrefixOperator} (step : operator.isStep = true) {operand : ValueType}
    (numeric : operand.isNumeric = true) (place : Place) (code : Code) :
    (prefixedCode place operator operand code).acts =
      prefixedCode .statement operator operand code :: code.acts := by
  rw [step_code step numeric, step_code step numeric]
  split <;> simp [Code.acts_before, step]

theorem acts_prefixed {operator : PrefixOperator} (plain : operator.isStep = false)
    (operand : ValueType) (place : Place) (code : Code) :
    (prefixedCode place operator operand code).acts = code.acts := by
  unfold prefixedCode
  simp only [plain, Bool.false_eq_true, if_false]
  split
  · simp
  · split
    · simp [Code.acts_before, plain]
    · split <;> simp [Code.acts_before, plain]

theorem acts_call {around : Surroundings} {target : CallTarget}
    (known : target.IsKnown manner.library around) (name : String) (arguments : List Code) :
    (callCode manner name target arguments).acts =
      callCode manner name target arguments :: arguments.flatMap Code.acts := by
  obtain ⟨callee, called, form⟩ := call_code_known known name arguments
  rw [form]
  exact Code.acts_of_act (by simp [Code.isAct, Code.isEffect, called])

theorem assignment_code (manner : Manner) {operator : BinaryOperator}
    (assigns : operator.isAssignment = true) (result : ValueType) (left right : Expr)
    (leftCode rightCode : Code) :
    ∃ value, binaryCode manner result operator left right leftCode rightCode =
      .assign leftCode value := by
  cases operator with
  | multiplyAssign =>
      by_cases rounds : left.type = .integer ∧ right.type = .float
      · simp [binaryCode, rounds]
      · simp [binaryCode, rounds, BinaryOperator.isModifying]
  | assign | addAssign | subtractAssign | divideAssign | modulusAssign => exact ⟨_, rfl⟩
  | _ => cases assigns

theorem acts_combined {info : ExprInfo} {operator : BinaryOperator} {left right : Expr}
    (plain : operator.isAssignment = false) :
    ((Expr.binary info operator left right).code manner .statement).acts =
      (Expr.binary info operator left right).acts manner ++
        ((right.code manner operator.operandPlace).acts ++
          (left.code manner operator.operandPlace).acts) := by
  have own : (Expr.binary info operator left right).acts manner =
      [(Expr.binary info operator left right).code manner .statement] := by
    simp only [BinaryOperator.isAssignment, Bool.or_eq_false_iff, beq_eq_false_iff_ne] at plain
    simp [Expr.acts, Expr.isEffect, Expr.operation?, BinaryOperator.isAssignment, plain]
  rw [own]
  rcases Expr.combined_code manner .statement plain info left right with
    ⟨symbol, form⟩ | ⟨operation, form⟩
  · simp [form]
  · simp [form]

theorem acts_assigned {info : ExprInfo} {operator : BinaryOperator} {left right : Expr}
    (assigns : operator.isAssignment = true) (assignable : left.isAssignable = true)
    (proper : left.isProper = true) :
    ((Expr.binary info operator left right).code manner .statement).acts =
      (Expr.binary info operator left right).acts manner ++
        (right.code manner .operand).acts := by
  have target : (left.code manner .operand).acts = [] := acts_assignable assignable proper .operand
  simp only [Expr.acts, Expr.isEffect, assigns, if_true, Expr.operation?]
  cases operator with
  | assign =>
      simp [Expr.code, binaryCode, BinaryOperator.isLogical, BinaryOperator.isModifying, target,
        acts_stored]
  | multiplyAssign =>
      by_cases rounds : left.type = .integer ∧ right.type = .float
      · simp [Expr.code, binaryCode, BinaryOperator.isLogical, BinaryOperator.isModifying, target,
          rounds]
      · simp [Expr.code, binaryCode, BinaryOperator.isLogical, BinaryOperator.isModifying, target,
          rounds]
  | addAssign | subtractAssign | divideAssign | modulusAssign =>
      simp [Expr.code, binaryCode, BinaryOperator.isLogical, BinaryOperator.isModifying, target]
  | _ => cases assigns

theorem acts_codes {exprs : List Expr} {place : Place}
    (each : ∀ expr ∈ exprs, (expr.code manner place).acts.Perm
      (expr.nodes.flatMap (Expr.acts manner))) :
    ((Expr.codes manner place exprs).flatMap Code.acts).Perm
      (exprs.flatMap fun expr => expr.nodes.flatMap (Expr.acts manner)) := by
  rw [Expr.codes_eq, List.flatMap_map]
  exact List.Perm.flatMap_left exprs each

/-- The code of an expression does what the nodes of the expression do, each once. -/
theorem acts_code {around : Surroundings} {expr : Expr}
    (ready : ∀ node ∈ expr.nodes, node.Ready manner.library around) (place : Place) :
    (expr.code manner place).acts.Perm (expr.nodes.flatMap (Expr.acts manner)) := by
  induction expr using Expr.parts_induction generalizing place with
  | step expr induction =>
      have own := ready expr expr.mem_nodes_self
      have parts : ∀ part ∈ expr.parts, ∀ place, (part.code manner place).acts.Perm
          (part.nodes.flatMap (Expr.acts manner)) := fun part member =>
        induction part member fun node inside => ready node (Expr.mem_nodes_of_part member inside)
      have proper : ∀ part ∈ expr.parts, part.isProper = true := fun part member =>
        (ready part (Expr.mem_nodes_of_part member part.mem_nodes_self)).proper
      rw [Expr.acts_nodes]
      cases expr with
      | integer info raw | hex info raw | float info raw | string info raw =>
          exact .of_eq (Code.acts_literal _ _ _)
      | reference info name binding => exact .of_eq (acts_reference name binding)
      | vector info x y z =>
          rw [Expr.code, Code.acts_grouped, Code.acts_create]
          exact acts_codes fun part member => parts part member .part
      | rotation info x y z s =>
          rw [Expr.code, Code.acts_grouped, Code.acts_create]
          exact acts_codes fun part member => parts part member .part
      | list info inner elements =>
          rw [Expr.code, Code.acts_grouped, Code.acts_create]
          exact acts_codes fun part member => parts part member .element
      | call info name inner arguments target =>
          rw [Expr.code, acts_call own.linked]
          exact .cons _ (acts_codes fun part member => parts part member _)
      | binary info operator left right =>
          have first := parts left (by simp [Expr.parts])
          have second := parts right (by simp [Expr.parts])
          simp only [Expr.parts, List.flatMap_cons, List.flatMap_nil, List.append_nil]
          change ((Expr.binary info operator left right).code manner .statement).acts.Perm _
          by_cases assigns : operator.isAssignment = true
          · have assignable : left.isAssignable = true := by
              simpa [Expr.isProper, assigns] using own.proper
            have fine := proper left (by simp [Expr.parts])
            have target := (first .operand).symm
            rw [acts_assignable assignable fine, List.perm_nil] at target
            rw [acts_assigned assigns assignable fine, target]
            exact (second .operand).append_left _
          · rw [acts_combined (by simpa using assigns)]
            exact (List.perm_append_comm.trans ((first _).append (second _))).append_left _
      | prefixed info operator operand =>
          have inner := parts operand List.mem_cons_self
          simp only [Expr.parts, List.flatMap_cons, List.flatMap_nil, List.append_nil]
          by_cases step : operator.isStep = true
          · simp only [Expr.acts, Expr.isEffect, Expr.operation?, step, if_true, Expr.code,
              acts_step step (Expr.numeric_of_step own.proper step)]
            exact .cons _ (inner _)
          · simp only [Expr.acts, Expr.isEffect, Expr.operation?, step, Expr.code,
              acts_prefixed (by simpa using step)]
            exact inner _
      | postfixed info operator operand =>
          have inner := parts operand List.mem_cons_self
          simp only [Expr.parts, List.flatMap_cons, List.flatMap_nil, List.append_nil]
          rw [Expr.code, acts_postfixed]
          exact .cons _ (inner _)
      | cast info target operand =>
          simpa [Expr.code, acts_cast, Expr.acts, Expr.isEffect, Expr.operation?, Expr.parts] using
            parts operand List.mem_cons_self _
      | grouped info inner =>
          simpa [Expr.code, acts_grouped, Expr.acts, Expr.isEffect, Expr.operation?,
            Expr.parts] using parts inner List.mem_cons_self _
      | component info part target =>
          simpa [Expr.code, Expr.acts, Expr.isEffect, Expr.operation?, Expr.parts] using
            parts target List.mem_cons_self _

end

theorem Code.not_operation_of_effect {code : Code} (effect : code.isEffect = true) :
    code.isOperation = false := by
  cases code with
  | operate operation right left => cases effect
  | logical symbol right left => cases effect
  | _ => rfl

namespace Expr

variable {manner : Manner} {around : Surroundings}

/-- The code of a node that is an effect is one. -/
theorem effect_code {node : Expr} (ready : node.Ready manner.library around)
    (effect : node.isEffect = true) : (node.code manner .statement).isEffect = true := by
  cases node with
  | call info name inner arguments target =>
      obtain ⟨callee, called, form⟩ := call_code_known ready.linked name
        (codes manner (.argument (isModuleCall manner target)) arguments)
      rw [code, form, Code.isEffect, called]
      rfl
  | binary info operator left right =>
      obtain ⟨value, form⟩ := assignment_code manner effect (info.type.getD .void) left right _ _
      rw [code, form]
      rfl
  | prefixed info operator operand =>
      have step : operator.isStep = true := effect
      rw [code, step_code step (numeric_of_step ready.proper step)]
      cases operator with
      | increment | decrement => rfl
      | _ => cases step
  | postfixed info operator operand => rfl
  | _ => cases effect

theorem operation_code {node : Expr} {term : Code}
    (operation : node.operation? manner = some term) : term.isOperation = true := by
  cases node with
  | binary info operator left right =>
      rw [operation?] at operation
      split at operation
      · split at operation
        · cases operation
        · cases operation
          rfl
      · rename_i plain
        split at operation
        · cases operation
        · rename_i other
          cases operation
          have combines : operator.isAssignment = false := by
            simp [BinaryOperator.isAssignment, plain, other]
          rcases combined_code manner .statement combines info left right with
            ⟨symbol, form⟩ | ⟨operation, form⟩
          · rw [form]
            rfl
          · rw [form]
            rfl
  | _ => cases operation

theorem acts_effects {node : Expr} (ready : node.Ready manner.library around) :
    (node.acts manner).filter Code.isEffect =
      if node.isEffect then [node.code manner .statement] else [] := by
  have plain : (node.operation? manner).toList.filter Code.isEffect = [] := by
    rw [List.filter_eq_nil_iff]
    intro term member effect
    have operation := operation_code (Option.mem_toList.mp member)
    rw [Code.not_operation_of_effect effect] at operation
    cases operation
  rw [acts, List.filter_append, plain, List.append_nil]
  split
  · rename_i effect
    simp [effect_code ready effect]
  · rfl

theorem acts_operations {node : Expr} (ready : node.Ready manner.library around) :
    (node.acts manner).filter Code.isOperation = (node.operation? manner).toList := by
  have kept : (node.operation? manner).toList.filter Code.isOperation =
      (node.operation? manner).toList := by
    rw [List.filter_eq_self]
    exact fun term member => operation_code (Option.mem_toList.mp member)
  rw [acts, List.filter_append, kept]
  split
  · rename_i effect
    simp [Code.not_operation_of_effect (effect_code ready effect)]
  · rfl

theorem effects_of_nodes {nodes : List Expr}
    (ready : ∀ node ∈ nodes, node.Ready manner.library around) :
    (nodes.flatMap (acts manner)).filter Code.isEffect =
      (nodes.filter isEffect).map (code manner .statement) := by
  induction nodes with
  | nil => rfl
  | cons node rest induction =>
      rw [List.flatMap_cons, List.filter_append, acts_effects (ready node List.mem_cons_self),
        induction fun node member => ready node (List.mem_cons_of_mem _ member), List.filter_cons]
      split <;> rfl

theorem operations_of_nodes {nodes : List Expr}
    (ready : ∀ node ∈ nodes, node.Ready manner.library around) :
    (nodes.flatMap (acts manner)).filter Code.isOperation =
      nodes.filterMap (operation? manner) := by
  induction nodes with
  | nil => rfl
  | cons node rest induction =>
      rw [List.flatMap_cons, List.filter_append, acts_operations (ready node List.mem_cons_self),
        induction fun node member => ready node (List.mem_cons_of_mem _ member),
        List.filterMap_cons]
      cases node.operation? manner <;> rfl

end Expr

end Lsl
