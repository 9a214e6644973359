import Lsl.Proofs.Checking.Statement
import Lsl.Proofs.Library.Formation
import Lsl.Proofs.Parsing.Precedence
import Lsl.Proofs.Syntax.Parts

/-!
Expressions that are checked without an error have a type, and so has everything in them; every name
in them stands for something in view, every call for something that can be called, what they change
is a variable or a component of one, and an operation has the type that goes with its operands.
-/

set_option autoImplicit false

namespace Lsl

/-- What is declared around an expression, by the places where it starts. A local variable comes
with the number of its scope. -/
structure Surroundings where
  globals : List Nat := []
  functions : List Nat := []
  parameters : List Nat := []
  locals : List (Nat × Nat) := []
deriving DecidableEq, Inhabited, Repr

section

variable (library : Library) (around : Surroundings)

/-- The name stands for something that is declared. -/
def Binding.IsKnown (name : String) : Binding → Prop
  | unresolved => False
  | global start => start ∈ around.globals
  | inScope start scope => (start, scope) ∈ around.locals
  | parameter start => start ∈ around.parameters
  | constant => (library.constant? name).isSome = true

def CallTarget.IsKnown : CallTarget → Prop
  | unresolved => False
  | script start => start ∈ around.functions
  | .library signature => (library.function? signature).isSome = true

/-- A name or a call is bound to what it stands for. -/
def Expr.IsLinked : Expr → Prop
  | .reference _ name binding => binding.IsKnown library around name
  | .call _ _ _ _ target => target.IsKnown library around
  | _ => True

end

/-- Only variables and their components are changed, and components are those of variables. -/
def Expr.isProper : Expr → Bool
  | .binary _ operator left _ => !operator.isAssignment || left.isAssignable
  | .prefixed _ operator operand =>
    !operator.isStep || operand.isAssignable && operand.type.isNumeric
  | .postfixed _ _ operand => operand.isAssignable
  | .component _ _ target => target.isReference
  | _ => true

/-- A node that nothing is wrong with. -/
structure Expr.Ready (library : Library) (around : Surroundings) (node : Expr) : Prop where
  typed : node.type?.isSome = true
  whole : node.info.faulty = false
  linked : node.IsLinked library around
  proper : node.isProper = true

section

variable (view : View) (name : String)

def Binding.IsDrawn (binding : Binding) : Prop :=
  (∃ found ∈ view.locals ++ view.globals, found.name = name ∧ found.binding = binding) ∨
    binding = .constant ∧ (view.library.constant? name).isSome = true

/-- The name stands for a function. Only a library that is not well-formed leaves a call without
one and says nothing. -/
def CallTarget.IsDrawn : CallTarget → Prop
  | unresolved => ¬ view.library.WellFormed
  | script start => ∃ header ∈ view.functions, header.name = name ∧ header.start = start
  | .library signature => (view.library.function? signature).isSome = true

end

def Expr.IsDrawn (view : View) : Expr → Prop
  | .reference _ name binding => binding.IsDrawn view name
  | .call _ name _ _ target => target.IsDrawn view name
  | _ => True

/-- The type of an operation on operands of these types, if they may have them. -/
def BinaryOperator.type? (operator : BinaryOperator) (left right : ValueType) :
    Option ValueType :=
  if operator.isAssignment then operator.assignedResult? left right
  else operator.result? left right

def Expr.IsRuled : Expr → Prop
  | .binary info operator left right => info.type = operator.type? left.type right.type
  | _ => True

/-- A node that nothing is wrong with, whatever its names stand for. -/
structure Expr.Firm (node : Expr) : Prop where
  typed : node.type?.isSome = true
  whole : node.info.faulty = false
  proper : node.isProper = true
  ruled : node.IsRuled

/-- Whatever can be seen is declared. -/
structure View.Within (view : View) (around : Surroundings) : Prop where
  library : view.library.WellFormed
  names : ∀ found ∈ view.locals ++ view.globals,
    found.binding.IsKnown view.library around found.name
  functions : ∀ header ∈ view.functions, header.start ∈ around.functions

namespace Expr

theorem type_of_known {expr : Expr} {type : ValueType} (known : expr.type? = some type) :
    expr.type = type := by
  rw [type?] at known
  rw [Expr.type, known, Option.getD_some]

@[simp] theorem silent_blame (expr : Expr) (problem : Problem) :
    (expr.blame problem).Silent ↔ problem.severity ≠ .error := by
  simp [Checked.Silent, blame, Diagnostic.isError]

theorem demand_silent {expr : Expr} {admits : ValueType → Bool} {problem : ValueType → Problem}
    (error : ∀ type, (problem type).severity = .error)
    (silent : (expr.demand admits problem).Silent) :
    (expr.demand admits problem).value = expr ∧ ∀ type ∈ expr.type?, admits type = true := by
  unfold demand at silent ⊢
  cases known : expr.type? with
  | none => simp
  | some type =>
      simp only [known] at silent ⊢
      split at silent
      · rename_i fits
        simp [fits]
      · simp [error] at silent

end Expr

theorem demand_float_silent {expr : Expr} (silent : (demandFloat expr).Silent) :
    (demandFloat expr).value = expr :=
  (Expr.demand_silent (fun _ => rfl) silent).1

theorem demand_element_silent {expr : Expr} (silent : (demandElement expr).Silent) :
    (demandElement expr).value = expr :=
  (Expr.demand_silent (fun _ => rfl) silent).1

theorem check_target_silent {expr : Expr} (silent : (checkTarget expr).Silent)
    (proper : expr.isProper = true) : (checkTarget expr).value = (expr, expr.isAssignable) := by
  have named : ∀ (info : ExprInfo) (name : String) (binding : Binding),
      (checkTarget (.reference info name binding)).Silent →
        (checkTarget (.reference info name binding)).value =
          (.reference info name binding, true) := by
    intro info name binding silent
    cases binding with
    | constant => simp [checkTarget, Problem.severity] at silent
    | _ => rfl
  cases expr with
  | reference info name binding => exact named info name binding silent
  | component info part target =>
      cases target with
      | reference inner name binding =>
          simp only [checkTarget, Checked.silent_bind] at silent
          simp [checkTarget, named inner name binding silent.1, Expr.isAssignable]
      | _ => cases proper
  | _ => rfl

theorem View.resolve_drawn {view : View} {name : String} {found : Visible}
    (resolved : view.resolve name = .ok found) : found.binding.IsDrawn view name := by
  have declared : ∀ {list : List Visible}, list ⊆ view.locals ++ view.globals →
      list.find? (·.name == name) = some found → found.binding.IsDrawn view name := by
    intro list inside located
    exact .inl ⟨found, inside (List.mem_of_find?_eq_some located),
      by simpa using List.find?_some located, rfl⟩
  unfold View.resolve View.declared? at resolved
  split at resolved
  · rename_i variable_ known
    cases resolved
    split at known
    · rename_i nearest located
      cases known
      exact declared (List.subset_append_left _ _) located
    · exact declared (List.subset_append_right _ _) known
  · split at resolved
    · cases resolved
    · split at resolved
      · rename_i constant named
        cases resolved
        simp only [View.constant?, Option.map_eq_some_iff] at named
        obtain ⟨entry, located, rfl⟩ := named
        exact .inr ⟨rfl, by simp [located]⟩
      · cases resolved

/-- Where whatever can be seen is declared, what a name stands for is known. -/
theorem Expr.IsDrawn.linked {view : View} {around : Surroundings} {node : Expr}
    (drawn : node.IsDrawn view) (within : view.Within around) :
    node.IsLinked view.library around := by
  cases node with
  | reference info name binding =>
      rcases drawn with ⟨found, member, rfl, rfl⟩ | ⟨rfl, known⟩
      · exact within.names found member
      · exact known
  | call info name inner arguments target =>
      cases target with
      | unresolved => exact drawn within.library
      | script start =>
          obtain ⟨header, member, _, rfl⟩ := drawn
          exact within.functions header member
      | library signature => exact drawn
  | _ => trivial

theorem known_types_is_some {exprs : List Expr} (typed : ∀ expr ∈ exprs, expr.type?.isSome = true) :
    ∃ types, knownTypes? exprs = some types := by
  induction exprs with
  | nil => exact ⟨[], rfl⟩
  | cons expr rest induction =>
      obtain ⟨type, known⟩ := Option.isSome_iff_exists.mp (typed expr List.mem_cons_self)
      obtain ⟨types, others⟩ := induction fun expr member =>
        typed expr (List.mem_cons_of_mem _ member)
      exact ⟨type :: types, by simp [knownTypes?, known, others]⟩

theorem fit_arguments_silent {function : String} {place : Nat} {arguments : List Expr}
    {types expected : List ValueType} (known : knownTypes? arguments = some types)
    (same : arguments.length = expected.length)
    (silent : (fitArguments function place arguments expected).Silent) :
    (fitArguments function place arguments expected).value = arguments ∧
      List.Forall₂ (fun given wanted => given.convertsTo wanted = true) types expected := by
  induction arguments generalizing place types expected with
  | nil =>
      obtain rfl : types = [] := by simpa [knownTypes?] using known.symm
      obtain rfl : expected = [] := by simpa using same.symm
      exact ⟨rfl, .nil⟩
  | cons argument arguments induction =>
      cases expected with
      | nil => simp at same
      | cons wanted expected =>
          simp only [knownTypes?] at known
          split at known
          · rename_i given others here behind
            cases known
            simp only [fitArguments, Checked.silent_bind] at silent
            obtain ⟨first, rest, _⟩ := silent
            obtain ⟨kept, fits⟩ := Expr.demand_silent (fun _ => rfl) first
            obtain ⟨all, later⟩ := induction behind (by simpa using same) rest
            refine ⟨?_, .cons (fits given here) later⟩
            simp only [fitArguments, Checked.value_bind, Checked.value_pure, kept, all]
          · cases known

namespace FunctionSignature

theorem arguments_fit_of_converts {parameters : List Parameter} {types : List ValueType}
    (plain : ∀ parameter ∈ parameters, parameter.variadic = false)
    (converts : List.Forall₂ (fun given wanted => given.convertsTo wanted = true) types
      (parameters.map (·.type))) : argumentsFit false parameters types = true := by
  induction parameters generalizing types with
  | nil =>
      cases converts
      rfl
  | cons parameter parameters induction =>
      cases converts with
      | cons fits others =>
          have first := plain parameter List.mem_cons_self
          have rest := induction (fun found member => plain found (List.mem_cons_of_mem _ member))
            others
          simp [argumentsFit, argumentFits, first, fits, rest]

end FunctionSignature

namespace Library

theorem mem_overloads {library : Library} {name : String} {function : LibraryFunction} :
    function ∈ library.overloads name ↔ function ∈ library.functions ∧ function.name = name := by
  simp [overloads]

theorem mem_of_resolve {library : Library} {name : String} {types : List ValueType}
    {overload : LibraryFunction} (resolved : library.resolve? name types = some overload) :
    overload ∈ library.overloads name := by
  unfold resolve? at resolved
  split at resolved
  · rename_i exact_ located
    cases resolved
    exact List.mem_of_find?_eq_some located
  · exact List.mem_of_find?_eq_some resolved

theorem function_of_resolve {library : Library} {name : String} {types : List ValueType}
    {overload : LibraryFunction} (resolved : library.resolve? name types = some overload) :
    (library.function? overload.signature).isSome = true := by
  have member := mem_of_resolve resolved
  have same : overload.signature.name = name := (mem_overloads.mp member).2
  rw [function?, same, List.find?_isSome]
  exact ⟨overload, member, by simp [FunctionSignature.agrees]⟩

theorem accepts_of_resolve {library : Library} {name : String} {types : List ValueType}
    (unresolved : library.resolve? name types = none) {overload : LibraryFunction}
    (member : overload ∈ library.overloads name) :
    overload.signature.accepts types false = false := by
  unfold resolve? at unresolved
  split at unresolved
  · cases unresolved
  · simpa using List.find?_eq_none.mp unresolved overload member

end Library

section

variable {view : View} {info : ExprInfo} {name : String} {inner : Span} {arguments : List Expr}

theorem check_arguments_silent {target : CallTarget} {types expected : List ValueType}
    (known : knownTypes? arguments = some types)
    (silent : (checkArguments info name inner arguments target expected).Silent) :
    (checkArguments info name inner arguments target expected).value =
        .call info name inner arguments target ∧
      List.Forall₂ (fun given wanted => given.convertsTo wanted = true) types expected := by
  unfold checkArguments at silent ⊢
  split at silent
  · simp [Problem.severity] at silent
  · rename_i same
    simp only [Checked.silent_bind] at silent
    obtain ⟨kept, converts⟩ := fit_arguments_silent known (not_not.mp same) silent.1
    rw [if_neg same]
    exact ⟨by simp only [Checked.value_bind, Checked.value_pure, kept], converts⟩

theorem check_unresolved_call_form {types : List ValueType}
    (known : knownTypes? arguments = some types)
    (silent : (checkUnresolvedCall view info name inner arguments types).Silent) :
    ∃ type, (checkUnresolvedCall view info name inner arguments types).value =
      .call { info with type := some type } name inner arguments .unresolved := by
  unfold checkUnresolvedCall at silent ⊢
  dsimp only at silent ⊢
  split at silent
  · rename_i only alone
    split at silent
    · simp [Problem.severity] at silent
    · rename_i last
      rw [if_neg last]
      exact ⟨_, (check_arguments_silent known silent).1⟩
  · simp [Problem.severity] at silent

/-- Where the only overload is said not to fit, something is said: arguments that convert to its
parameters would have been accepted. -/
theorem check_unresolved_call_reports (library : view.library.WellFormed)
    {types : List ValueType} (known : knownTypes? arguments = some types)
    (unresolved : view.library.resolve? name types = none) :
    ¬ (checkUnresolvedCall view info name inner arguments types).Silent := by
  intro silent
  unfold checkUnresolvedCall at silent
  dsimp only at silent
  split at silent
  · rename_i only alone
    have member : only ∈ view.library.overloads name := by simp [alone]
    split at silent
    · simp [Problem.severity] at silent
    · rename_i last
      have built := library.functions only (Library.mem_overloads.mp member).1
      have plain := (FunctionSignature.of_parameters_ok built).1 (by simpa using last)
      have converts := (check_arguments_silent known silent).2
      have accepted := FunctionSignature.arguments_fit_of_converts plain converts
      have refused := Library.accepts_of_resolve unresolved member
      rw [FunctionSignature.accepts, accepted] at refused
      cases refused
  · simp [Problem.severity] at silent

theorem check_call_silent (typed : ∀ argument ∈ arguments, argument.type?.isSome = true)
    (silent : (checkCall view info name inner arguments).Silent) :
    ∃ type target, (checkCall view info name inner arguments).value =
        .call { info with type := some type } name inner arguments target ∧
      target.IsDrawn view name := by
  obtain ⟨types, known⟩ := known_types_is_some typed
  unfold checkCall at silent ⊢
  cases found : view.function? name with
  | some header =>
      simp only [found] at silent ⊢
      exact ⟨_, _, (check_arguments_silent known silent).1, header,
        List.mem_of_find?_eq_some found, by simpa using List.find?_some found, rfl⟩
  | none =>
      simp only [found] at silent ⊢
      split at silent
      · simp [Problem.severity] at silent
      · rename_i declared
        rw [if_neg declared]
        simp only [known] at silent ⊢
        unfold checkLibraryCall at silent ⊢
        cases resolved : view.library.resolve? name types with
        | none =>
            simp only [resolved] at silent ⊢
            obtain ⟨type, form⟩ := check_unresolved_call_form known silent
            exact ⟨type, .unresolved, form, fun library =>
              check_unresolved_call_reports library known resolved silent⟩
        | some overload =>
            refine ⟨overload.signature.returns, .library overload.signature, ?_,
              Library.function_of_resolve resolved⟩
            simp only
            split <;> rfl

theorem check_reference_silent (silent : (checkReference view info name).Silent) :
    ∃ type binding, (checkReference view info name).value =
        .reference { info with type := some type } name binding ∧ binding.IsDrawn view name := by
  unfold checkReference at silent ⊢
  split at silent
  · rename_i found resolved
    exact ⟨found.type, found.binding, rfl, View.resolve_drawn resolved⟩
  · rename_i problem unresolved
    have error : problem.severity = .error := by
      unfold View.resolve at unresolved
      split at unresolved
      · cases unresolved
      · split at unresolved
        · cases unresolved
          rfl
        · split at unresolved
          · cases unresolved
          · cases unresolved
            rfl
    simp [error] at silent

end

section

variable {info : ExprInfo}

theorem type_operation_silent {operator : BinaryOperator} {left right : Expr}
    (leftTyped : left.type?.isSome = true) (rightTyped : right.type?.isSome = true)
    (silent : (typeOperation info operator left right).Silent) :
    ∃ type, operator.type? left.type right.type = some type ∧
      (typeOperation info operator left right).value =
        .binary { info with type := some type } operator left right := by
  obtain ⟨leftType, leftKnown⟩ := Option.isSome_iff_exists.mp leftTyped
  obtain ⟨rightType, rightKnown⟩ := Option.isSome_iff_exists.mp rightTyped
  have error : (operandProblem operator leftType rightType).severity = .error := by
    unfold operandProblem
    split <;> rfl
  rw [Expr.type_of_known leftKnown, Expr.type_of_known rightKnown, BinaryOperator.type?]
  simp only [typeOperation, leftKnown, rightKnown] at silent ⊢
  generalize (if operator.isAssignment then operator.assignedResult? leftType rightType
    else operator.result? leftType rightType) = result at silent ⊢
  cases result with
  | none => simp [error] at silent
  | some type => exact ⟨type, rfl, rfl⟩

theorem check_binary_silent {operator : BinaryOperator} {left right : Expr}
    (leftTyped : left.type?.isSome = true) (rightTyped : right.type?.isSome = true)
    (leftProper : left.isProper = true)
    (assignable : operator.isAssignment = true → left.isAssignable = true)
    (silent : (checkBinary info operator left right).Silent) :
    ∃ type, operator.type? left.type right.type = some type ∧
      (checkBinary info operator left right).value =
        .binary { info with type := some type } operator left right := by
  unfold checkBinary at silent ⊢
  split at silent
  · rename_i assigns
    rw [if_pos assigns]
    simp only [Bool.and_eq_true] at assigns
    simp only [Checked.silent_bind, Checked.value_bind] at silent ⊢
    have target := check_target_silent silent.1 leftProper
    rw [assignable assigns.1] at target
    simp only [target, if_true] at silent ⊢
    exact type_operation_silent leftTyped rightTyped silent.2
  · rename_i plain
    rw [if_neg plain]
    exact type_operation_silent leftTyped rightTyped silent

theorem type_prefixed_silent {operator : PrefixOperator} {operand : Expr} {type : ValueType}
    (silent : (typePrefixed info operator operand type).Silent) :
    ∃ result, operator.result? type = some result ∧
      (typePrefixed info operator operand type).value =
        .prefixed { info with type := some result } operator operand := by
  unfold typePrefixed at silent ⊢
  cases found : operator.result? type with
  | none => simp [found, Problem.severity] at silent
  | some result => exact ⟨result, rfl, rfl⟩

theorem PrefixOperator.numeric_of_step {operator : PrefixOperator} {type result : ValueType}
    (step : operator.isStep = true) (found : operator.result? type = some result) :
    type.isNumeric = true := by
  cases operator <;> cases type <;> simp_all [isStep, result?, ValueType.isNumeric]

theorem check_prefixed_silent {operator : PrefixOperator} {operand : Expr}
    (typed : operand.type?.isSome = true) (clean : operand.hasErrors = false)
    (operandProper : operand.isProper = true)
    (silent : (checkPrefixed info operator operand).Silent) :
    ∃ type, (checkPrefixed info operator operand).value =
        .prefixed { info with type := some type } operator operand ∧
      (operator.isStep = true → operand.isAssignable = true ∧ operand.type.isNumeric = true) := by
  obtain ⟨type, known⟩ := Option.isSome_iff_exists.mp typed
  have same := Expr.type_of_known known
  unfold checkPrefixed at silent ⊢
  simp only [known] at silent ⊢
  split at silent
  · rename_i step
    rw [if_pos step]
    simp only [Checked.silent_bind, Checked.value_bind] at silent ⊢
    have target := check_target_silent silent.1 operandProper
    simp only [target] at silent ⊢
    cases assignable : operand.isAssignable with
    | true =>
        simp only [assignable, if_true] at silent ⊢
        obtain ⟨result, found, form⟩ := type_prefixed_silent silent.2
        exact ⟨result, form, fun _ => ⟨trivial, same ▸ PrefixOperator.numeric_of_step step found⟩⟩
    | false =>
        -- Nothing in the operand is at fault, so the step itself would have been blamed.
        simp [assignable, clean, Problem.severity] at silent
  · rename_i plain
    rw [if_neg plain]
    obtain ⟨result, _, form⟩ := type_prefixed_silent silent
    exact ⟨result, form, fun step => absurd step plain⟩

theorem check_postfixed_silent {operator : PostfixOperator} {operand : Expr}
    (typed : operand.type?.isSome = true) (operandProper : operand.isProper = true)
    (assignable : operand.isAssignable = true)
    (silent : (checkPostfixed info operator operand).Silent) :
    ∃ type, (checkPostfixed info operator operand).value =
      .postfixed { info with type := some type } operator operand := by
  obtain ⟨type, known⟩ := Option.isSome_iff_exists.mp typed
  unfold checkPostfixed at silent ⊢
  simp only [Checked.silent_bind, Checked.value_bind] at silent ⊢
  have target := check_target_silent silent.1 operandProper
  rw [assignable] at target
  simp only [target, known] at silent ⊢
  cases found : operator.result? type with
  | none => simp [found, Problem.severity] at silent
  | some result => exact ⟨result, rfl⟩

theorem check_cast_silent {target : ValueType} {operand : Expr}
    (typed : operand.type?.isSome = true) (silent : (checkCast info target operand).Silent) :
    (checkCast info target operand).value =
      .cast { info with type := some target } target operand := by
  obtain ⟨type, known⟩ := Option.isSome_iff_exists.mp typed
  simp only [checkCast, known] at silent ⊢
  split at silent
  · rename_i casts
    rw [if_pos casts]
    rfl
  · simp [Problem.severity] at silent

theorem check_component_silent {part : Component} {target : Expr}
    (typed : target.type?.isSome = true) (silent : (checkComponent info part target).Silent) :
    (checkComponent info part target).value =
      .component { info with type := some .float } part target := by
  obtain ⟨type, known⟩ := Option.isSome_iff_exists.mp typed
  simp only [checkComponent, known] at silent ⊢
  split at silent
  · rename_i present
    rw [if_pos present]
    rfl
  · simp [Problem.severity] at silent

end

theorem check_exprs_silent {view : View} {demand : Expr → Checked Expr} {exprs : List Expr}
    (keeps : ∀ expr : Expr, (demand expr).Silent → (demand expr).value = expr)
    (silent : (checkExprs view demand exprs).Silent) :
    (checkExprs view demand exprs).value = exprs.map (fun expr => (checkExpr view expr).value) ∧
      ∀ expr ∈ exprs, (checkExpr view expr).Silent := by
  induction exprs with
  | nil => simp [checkExprs]
  | cons expr rest induction =>
      simp only [checkExprs, Checked.silent_bind] at silent
      obtain ⟨⟨first, demanded⟩, others, _⟩ := silent
      obtain ⟨same, silents⟩ := induction others
      refine ⟨?_, by simpa using ⟨first, silents⟩⟩
      simp only [checkExprs, Checked.value_bind, Checked.value_pure, keeps _ demanded, same,
        List.map_cons]

/-- What checking makes of a node whose parts are fine. -/
structure Expr.Settles (view : View) (before after : Expr) : Prop where
  parts : after.parts = before.parts.map fun part => (checkExpr view part).value
  firm : after.Firm
  drawn : after.IsDrawn view

namespace Expr

theorem precedenced_parts {expr : Expr} (precedenced : expr.isPrecedenced = true) :
    ∀ part ∈ expr.parts, part.isPrecedenced = true := by
  cases expr <;> simp_all [isPrecedenced, parts, all_precedenced_iff]

theorem sound_part {expr part : Expr} (sound : expr.Sound) (member : part ∈ expr.parts) :
    part.Sound :=
  ⟨precedenced_parts sound.precedenced part member, (has_errors_iff.mp sound.clean).2 part member⟩

theorem silent_part {view : View} {expr part : Expr} (silent : (checkExpr view expr).Silent)
    (member : part ∈ expr.parts) : (checkExpr view part).Silent := by
  cases expr with
  | list info inner elements =>
      simp only [checkExpr, Checked.silent_bind] at silent
      exact (check_exprs_silent (fun _ => demand_element_silent) silent.1).2 part member
  | call info name inner arguments target =>
      simp only [checkExpr, Checked.silent_bind] at silent
      exact (check_exprs_silent (fun _ _ => rfl) silent.1).2 part member
  | integer | hex | float | string | reference => simp [parts] at member
  | _ =>
      simp only [checkExpr, Checked.silent_bind] at silent
      simp only [parts, List.mem_cons, List.not_mem_nil, or_false] at member
      grind

theorem reference_of_check {view : View} {expr : Expr} (named : expr.isReference = true) :
    (checkExpr view expr).value.isReference = true := by
  cases expr with
  | reference info name binding =>
      simp only [checkExpr, checkReference]
      split <;> rfl
  | _ => cases named

theorem assignable_of_check {view : View} {expr : Expr} (assignable : expr.isAssignable = true) :
    (checkExpr view expr).value.isAssignable = true := by
  cases expr with
  | reference info name binding =>
      simp only [checkExpr, checkReference]
      split <;> rfl
  | component info part target =>
      simp only [checkExpr, Checked.value_bind, checkComponent]
      split
      · rfl
      · split <;> rfl
  | _ => cases assignable

section

variable {view : View} {expr : Expr}

theorem settles_check (sound : expr.Sound) (silent : (checkExpr view expr).Silent)
    (parts : ∀ part ∈ expr.parts, (checkExpr view part).value.Firm ∧
      (checkExpr view part).value.hasErrors = false) :
    expr.Settles view (checkExpr view expr).value := by
  have whole := (has_errors_iff.mp sound.clean).1
  cases expr with
  | integer info raw | hex info raw | float info raw | string info raw =>
      exact ⟨rfl, ⟨rfl, whole, rfl, trivial⟩, trivial⟩
  | vector info x y z =>
      simp only [checkExpr, Checked.silent_bind, Checked.value_bind, Checked.value_pure] at silent ⊢
      rw [demand_float_silent silent.1.2, demand_float_silent silent.2.1.2,
        demand_float_silent silent.2.2.1.2]
      exact ⟨rfl, ⟨rfl, whole, rfl, trivial⟩, trivial⟩
  | rotation info x y z s =>
      simp only [checkExpr, Checked.silent_bind, Checked.value_bind, Checked.value_pure] at silent ⊢
      rw [demand_float_silent silent.1.2, demand_float_silent silent.2.1.2,
        demand_float_silent silent.2.2.1.2, demand_float_silent silent.2.2.2.1.2]
      exact ⟨rfl, ⟨rfl, whole, rfl, trivial⟩, trivial⟩
  | list info inner elements =>
      simp only [checkExpr, Checked.silent_bind, Checked.value_bind, Checked.value_pure] at silent ⊢
      exact ⟨(check_exprs_silent (fun _ => demand_element_silent) silent.1).1,
        ⟨rfl, whole, rfl, trivial⟩, trivial⟩
  | reference info name binding =>
      obtain ⟨type, found, form, drawn⟩ := check_reference_silent silent
      rw [checkExpr, form]
      exact ⟨rfl, ⟨rfl, whole, rfl, trivial⟩, drawn⟩
  | call info name inner arguments target =>
      simp only [checkExpr, Checked.silent_bind, Checked.value_bind] at silent ⊢
      have same := (check_exprs_silent (fun _ _ => rfl) silent.1).1
      obtain ⟨type, found, form, drawn⟩ := check_call_silent (by
        rw [same]
        intro argument member
        obtain ⟨source, inside, rfl⟩ := List.mem_map.mp member
        exact (parts source inside).1.typed) silent.2
      rw [form]
      exact ⟨same, ⟨rfl, whole, rfl, trivial⟩, drawn⟩
  | binary info operator left right =>
      obtain ⟨leftFirm, _⟩ := parts left (by simp [Expr.parts])
      obtain ⟨rightFirm, _⟩ := parts right (by simp [Expr.parts])
      have assignable : operator.isAssignment = true →
          (checkExpr view left).value.isAssignable = true := by
        intro assigns
        have shape := sound.precedenced
        simp only [isPrecedenced, assigns, if_true, Bool.and_eq_true] at shape
        exact assignable_of_check shape.2
      simp only [checkExpr, Checked.silent_bind, Checked.value_bind] at silent ⊢
      obtain ⟨type, ruled, form⟩ := check_binary_silent leftFirm.typed rightFirm.typed
        leftFirm.proper assignable silent.2.2
      rw [form]
      refine ⟨rfl, ⟨rfl, whole, ?_, ruled.symm⟩, trivial⟩
      cases assigns : operator.isAssignment with
      | false => simp [isProper, assigns]
      | true => simp [isProper, assignable assigns]
  | prefixed info operator operand =>
      obtain ⟨firm, clean⟩ := parts operand (by simp [Expr.parts])
      simp only [checkExpr, Checked.silent_bind, Checked.value_bind] at silent ⊢
      obtain ⟨type, form, stepped⟩ := check_prefixed_silent firm.typed clean firm.proper silent.2
      rw [form]
      refine ⟨rfl, ⟨rfl, whole, ?_, trivial⟩, trivial⟩
      cases step : operator.isStep with
      | false => simp [isProper, step]
      | true => simp [isProper, stepped step]
  | postfixed info operator operand =>
      obtain ⟨firm, _⟩ := parts operand (by simp [Expr.parts])
      have shape := sound.precedenced
      simp only [isPrecedenced, Bool.and_eq_true] at shape
      have assignable : (checkExpr view operand).value.isAssignable = true :=
        assignable_of_check shape.2
      simp only [checkExpr, Checked.silent_bind, Checked.value_bind] at silent ⊢
      obtain ⟨type, form⟩ := check_postfixed_silent firm.typed firm.proper assignable silent.2
      rw [form]
      exact ⟨rfl, ⟨rfl, whole, assignable, trivial⟩, trivial⟩
  | cast info target operand =>
      obtain ⟨firm, _⟩ := parts operand (by simp [Expr.parts])
      simp only [checkExpr, Checked.silent_bind, Checked.value_bind] at silent ⊢
      rw [check_cast_silent firm.typed silent.2]
      exact ⟨rfl, ⟨rfl, whole, rfl, trivial⟩, trivial⟩
  | grouped info inner =>
      obtain ⟨firm, _⟩ := parts inner (by simp [Expr.parts])
      exact ⟨rfl, ⟨firm.typed, whole, rfl, trivial⟩, trivial⟩
  | component info part target =>
      obtain ⟨firm, _⟩ := parts target (by simp [Expr.parts])
      have shape := sound.precedenced
      simp only [isPrecedenced, Bool.and_eq_true] at shape
      simp only [checkExpr, Checked.silent_bind, Checked.value_bind] at silent ⊢
      rw [check_component_silent firm.typed silent.2]
      exact ⟨rfl, ⟨rfl, whole, reference_of_check shape.2, trivial⟩, trivial⟩

/-- Every node of an expression that is read and checked without an error is firm, and its names
stand for something in view. -/
theorem firm_check (sound : expr.Sound) (silent : (checkExpr view expr).Silent) :
    ∀ node ∈ (checkExpr view expr).value.nodes, node.Firm ∧ node.IsDrawn view := by
  induction expr using parts_induction with
  | step expr induction =>
      have inner : ∀ part ∈ expr.parts, ∀ node ∈ (checkExpr view part).value.nodes,
          node.Firm ∧ node.IsDrawn view := fun part member =>
        induction part member (sound_part sound member) (silent_part silent member)
      have settles := settles_check sound silent fun part member =>
        ⟨(inner part member _ (mem_nodes_self _)).1,
          clean_of_nodes fun node inside => (inner part member node inside).1.whole⟩
      intro node inside
      rcases mem_nodes.mp inside with rfl | ⟨part, member, inside⟩
      · exact ⟨settles.firm, settles.drawn⟩
      · rw [settles.parts] at member
        obtain ⟨source, sourceMember, rfl⟩ := List.mem_map.mp member
        exact inner source sourceMember node inside

theorem ready_check {around : Surroundings} (within : view.Within around) (sound : expr.Sound)
    (silent : (checkExpr view expr).Silent) :
    ∀ node ∈ (checkExpr view expr).value.nodes, node.Ready view.library around := by
  intro node inside
  obtain ⟨firm, drawn⟩ := firm_check sound silent node inside
  exact ⟨firm.typed, firm.whole, drawn.linked within, firm.proper⟩

end

end Expr

end Lsl
