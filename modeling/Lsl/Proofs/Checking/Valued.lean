import Lsl.Proofs.Checking.Typing

/-!
Where a value is needed. What operators, casts, calls, vectors, rotations and lists are made of is
never void in an accepted source, nor is an initial value, a condition or what a function returns.
-/

set_option autoImplicit false

namespace Lsl

namespace ValueType

theorem valued_of_converts {source target : ValueType}
    (converts : source.convertsTo target = true) : source ≠ .void := by
  rintro rfl
  cases target <;> cases converts

theorem valued_of_casts {source target : ValueType} (casts : source.castsTo target = true) :
    source ≠ .void := by
  rintro rfl
  cases target <;> cases casts

end ValueType

theorem valued_of_converting {given wanted : List ValueType}
    (fits : List.Forall₂ (fun given wanted => given.convertsTo wanted = true) given wanted) :
    ∀ type ∈ given, type ≠ .void := by
  induction fits with
  | nil => simp
  | cons converts _ induction =>
      simpa using ⟨ValueType.valued_of_converts converts, induction⟩

theorem BinaryOperator.valued {operator : BinaryOperator} {left right type : ValueType}
    (typed : operator.type? left right = some type) : left ≠ .void ∧ right ≠ .void := by
  have void (operator : BinaryOperator) (other : ValueType) :
      operator.type? .void other = none ∧ operator.type? other .void = none := by
    cases operator <;> cases other <;> exact ⟨rfl, rfl⟩
  constructor
  · rintro rfl
    cases (void operator right).1.symm.trans typed
  · rintro rfl
    cases (void operator left).2.symm.trans typed

theorem PrefixOperator.valued {operator : PrefixOperator} {operand type : ValueType}
    (typed : operator.result? operand = some type) : operand ≠ .void := by
  rintro rfl
  cases operator <;> cases typed

theorem PrefixOperator.gives {operator : PrefixOperator} {operand type : ValueType}
    (typed : operator.result? operand = some type) : type ≠ .void := by
  rintro rfl
  cases operator <;> cases operand <;> cases typed

theorem PostfixOperator.valued {operator : PostfixOperator} {operand type : ValueType}
    (typed : operator.result? operand = some type) : operand ≠ .void := by
  rintro rfl
  cases typed

namespace FunctionSignature

/-- Every parameter but a variadic one has a value. -/
def IsValued (signature : FunctionSignature) : Prop :=
  ∀ parameter ∈ signature.parameters, parameter.type = .void → parameter.variadic = true

theorem add_parameter_valued {signature : FunctionSignature} {parameter : Parameter}
    (valued : signature.IsValued) (admits : signature.Admits parameter) :
    IsValued { signature with parameters := Parameter.placed signature.parameters parameter } := by
  intro found member nothing
  rcases List.mem_append.mp member with member | member
  · exact valued found member nothing
  · obtain rfl := List.mem_singleton.mp member
    exact admits.valued nothing

theorem of_parameters_valued {returns : ValueType} {name : String} {parameters : List Parameter}
    {signature : FunctionSignature} (built : ofParameters returns name parameters = .ok signature) :
    signature.IsValued := by
  unfold ofParameters ofName at built
  obtain ⟨bare, named, built⟩ := bind_eq_ok.mp built
  obtain ⟨_, _, named⟩ := bind_eq_ok.mp named
  cases named
  have empty : IsValued ⟨name, returns, []⟩ := fun _ member => by cases member
  exact (fold_invariant add_parameter_valued empty built).1

/-- What a parameter takes has a value if the parameter has one. -/
theorem argument_valued {exact : Bool} {argument expected : ValueType} (valued : expected ≠ .void)
    (fits : argumentFits exact argument expected = true) : argument ≠ .void := by
  cases exact with
  | true =>
      obtain rfl : argument = expected := by simpa [argumentFits] using fits
      exact valued
  | false => exact ValueType.valued_of_converts fits

theorem arguments_valued {exact : Bool} {parameters : List Parameter} {arguments : List ValueType}
    (valued : ∀ parameter ∈ parameters, parameter.type = .void → parameter.variadic = true)
    (fits : argumentsFit exact parameters arguments = true) :
    ∀ argument ∈ arguments, argument ≠ .void := by
  induction parameters generalizing arguments with
  | nil =>
      cases arguments with
      | nil => simp
      | cons => cases fits
  | cons parameter rest induction =>
      rw [argumentsFit.eq_def] at fits
      dsimp only at fits
      split at fits
      · intro argument member
        have admitted := List.all_eq_true.mp fits argument member
        simp only [Bool.and_eq_true, bne_iff_ne] at admitted
        exact admitted.1
      · rename_i single
        cases arguments with
        | nil => simp
        | cons argument others =>
            obtain ⟨own, fits⟩ := Bool.and_eq_true_iff.mp fits
            have given : parameter.type ≠ .void := mt (valued parameter List.mem_cons_self) single
            have later := induction
              (fun found member => valued found (List.mem_cons_of_mem _ member)) fits
            simpa using ⟨argument_valued given own, later⟩

end FunctionSignature

theorem Library.WellFormed.resolved_valued {library : Library} (wellFormed : library.WellFormed)
    {name : String} {arguments : List ValueType} {overload : LibraryFunction}
    (resolved : library.resolve? name arguments = some overload) :
    ∀ argument ∈ arguments, argument ≠ .void := by
  obtain ⟨exact, accepts, member⟩ : ∃ exact, overload.signature.accepts arguments exact = true ∧
      overload ∈ library.overloads name := by
    unfold Library.resolve? at resolved
    split at resolved
    · rename_i found given
      obtain rfl := Option.some.inj resolved
      have accepts := List.find?_some given
      exact ⟨true, accepts, List.mem_of_find?_eq_some given⟩
    · have accepts := List.find?_some resolved
      exact ⟨false, accepts, List.mem_of_find?_eq_some resolved⟩
  have built := wellFormed.functions overload (List.mem_of_mem_filter member)
  exact FunctionSignature.arguments_valued (FunctionSignature.of_parameters_valued built) accepts

namespace Expr

/-- The expressions whose values an expression is computed from. Parentheses compute nothing. -/
def operands : Expr → List Expr
  | grouped _ _ => []
  | expr => expr.parts

theorem IsTyped.operands_valued {view : View} (wellFormed : view.library.WellFormed) {node : Expr}
    (firm : node.Firm) (typed : node.IsTyped view) :
    ∀ operand ∈ node.operands, operand.type ≠ .void := by
  obtain ⟨type, known⟩ := Option.isSome_iff_exists.mp firm.typed
  have parts {list : List Expr} {target : ValueType}
      (fits : ∀ part ∈ list, part.type.convertsTo target = true) :
      ∀ part ∈ list, part.type ≠ .void :=
    fun part member => ValueType.valued_of_converts (fits part member)
  cases node with
  | integer | hex | float | string | reference | grouped => simp [operands, Expr.parts]
  | vector info x y z => exact parts typed.2
  | rotation info x y z s => exact parts typed.2
  | list info inner elements =>
      intro element member nothing
      have fits := typed.2 element member
      rw [nothing] at fits
      cases fits
  | call info name inner arguments target =>
      obtain ⟨_, _, calls⟩ := typed wellFormed
      have valued : ∀ given ∈ arguments.map Expr.type, given ≠ .void := by
        cases calls with
        | script found fits => exact valued_of_converting fits
        | library own resolved => exact wellFormed.resolved_valued resolved
      exact fun argument member => valued _ (List.mem_map_of_mem member)
  | binary info operator left right =>
      obtain ⟨first, second⟩ := BinaryOperator.valued (typed.1.symm.trans known)
      simpa [operands, Expr.parts] using ⟨first, second⟩
  | prefixed info operator operand =>
      simpa [operands, Expr.parts] using PrefixOperator.valued (typed.1.symm.trans known)
  | postfixed info operator operand =>
      simpa [operands, Expr.parts] using PostfixOperator.valued (typed.1.symm.trans known)
  | cast info target operand =>
      simpa [operands, Expr.parts] using ValueType.valued_of_casts typed.2
  | component info part target =>
      simp only [operands, Expr.parts, List.mem_singleton, forall_eq]
      intro nothing
      have present := typed.2
      rw [nothing] at present
      cases present

theorem operands_subset (node : Expr) : node.operands ⊆ node.parts := by
  cases node with
  | grouped => exact List.nil_subset _
  | _ => exact List.Subset.refl _

/-- A node with a type that is computed from values. An operator in front of one gives a value. -/
structure IsSettled (node : Expr) : Prop where
  typed : node.type?.isSome = true
  operands : ∀ operand ∈ node.operands, operand.type ≠ .void
  prefixed : ∀ info operator operand, node = prefixed info operator operand → node.type ≠ .void

/-- All nodes of the expression are computed from values. -/
def IsValued (expr : Expr) : Prop := ∀ node ∈ expr.nodes, node.IsSettled

theorem IsValued.typed {expr : Expr} (valued : expr.IsValued) : expr.type?.isSome = true :=
  (valued expr expr.mem_nodes_self).typed

theorem valued_of_typed {expr : Expr} {view : View} (wellFormed : view.library.WellFormed)
    (typed : ∀ node ∈ expr.nodes, node.Firm ∧ node.IsTyped view) : expr.IsValued := by
  intro node inside
  obtain ⟨firm, typed⟩ := typed node inside
  refine ⟨firm.typed, typed.operands_valued wellFormed firm, ?_⟩
  rintro info operator operand rfl
  obtain ⟨type, known⟩ := Option.isSome_iff_exists.mp firm.typed
  rw [type_of_known known]
  exact PrefixOperator.gives (typed.1.symm.trans known)

end Expr

namespace Accepted

variable {library : Library} {source : String} (accepted : Accepted library source)
  (wellFormed : library.WellFormed)

include accepted wellFormed

/-- What the expressions of a statement are computed from has a value, and the statement may take
its own expressions for what it does. -/
theorem statement_valued {owner : Owner} {parameters : ParameterList} {body : CodeScope}
    (passed : body.Passed ((parse (tokenize source)).1.outlook library) owner parameters)
    {stmt : Stmt} (inside : stmt ∈ Stmt.listStatements body.body) :
    (∀ expr ∈ stmt.exprs, expr.IsValued) ∧ stmt.Fits owner := by
  obtain ⟨levels, back, spot⟩ := Spot.of_statement body.info.id inside
  obtain ⟨_, near, rest, seen, view⟩ := accepted.spot_context passed spot
  refine ⟨?_, ((accepted.body_typed wellFormed passed).typed levels stmt back spot).2⟩
  intro expr member
  have typed := seen.holds.exprs expr member
  rw [view] at typed
  exact Expr.valued_of_typed wellFormed typed

theorem initializer_valued {global : GlobalDecl}
    (member : global ∈ (checkSource library source).value.globals) {value : Expr}
    (given : value ∈ global.decl.initializer) : value.IsValued ∧ value.type ≠ .void := by
  obtain ⟨front, back, split⟩ := List.append_of_mem member
  obtain ⟨_, forthcoming, typed⟩ := accepted.initializer_context split given
  exact ⟨Expr.valued_of_typed wellFormed typed,
    ValueType.valued_of_converts (accepted.initializer_fits member value given)⟩

end Accepted

end Lsl
