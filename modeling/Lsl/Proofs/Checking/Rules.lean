import Lsl.Proofs.Checking.Readiness

/-!
The rule behind the type of every node. What is checked without an error has, node by node, the type
that goes with the types of its parts and with what its names stand for in view.
-/

set_option autoImplicit false

namespace Lsl

/-- A variable, or a component of one, that is not a constant of the library. -/
def Expr.isWritable : Expr → Bool
  | .reference _ _ binding => binding != .constant
  | .component _ _ target => target.isWritable
  | _ => false

/-- What a call of the name with arguments of these types calls, and what it gives back. -/
inductive View.Calls (view : View) (name : String) (types : List ValueType) :
    CallTarget → ValueType → Prop where
  | script {header : FunctionHeader} (found : view.function? name = some header)
      (fits : List.Forall₂ (fun given wanted => given.convertsTo wanted = true) types
        header.parameters) : Calls view name types (.script header.start) header.returns
  | library {overload : LibraryFunction} (own : view.function? name = none)
      (resolved : view.library.resolve? name types = some overload) :
      Calls view name types (.library overload.signature) overload.signature.returns

/-- The node has the type that goes with its parts. Only a library that is not well-formed may leave a
call without one to go by. -/
def Expr.IsTyped (view : View) : Expr → Prop
  | .integer info _ => info.type = some .integer
  | .hex info _ => info.type = some .integer
  | .float info _ => info.type = some .float
  | .string info _ => info.type = some .string
  | .vector info x y z =>
    info.type = some .vector ∧ ∀ part ∈ [x, y, z], part.type.convertsTo .float = true
  | .rotation info x y z s =>
    info.type = some .rotation ∧ ∀ part ∈ [x, y, z, s], part.type.convertsTo .float = true
  | .list info _ elements =>
    info.type = some .list ∧ ∀ element ∈ elements, element.type.isListElement = true
  | .reference info name binding =>
    ∃ found, view.resolve name = .ok found ∧ info.type = some found.type ∧ binding = found.binding
  | .call info name _ arguments target =>
    view.library.WellFormed →
      ∃ type, info.type = some type ∧ view.Calls name (arguments.map Expr.type) target type
  | .binary info operator left right =>
    info.type = operator.type? left.type right.type ∧
      (operator.isAssignment = true → left.isWritable = true)
  | .prefixed info operator operand =>
    info.type = operator.result? operand.type ∧
      (operator.isStep = true → operand.isWritable = true)
  | .postfixed info operator operand =>
    info.type = operator.result? operand.type ∧ operand.isWritable = true
  | .cast info target operand => info.type = some target ∧ operand.type.castsTo target = true
  | .grouped info inner => info.type = inner.type?
  | .component info part target => info.type = some .float ∧ part.existsOn target.type = true

theorem known_types_eq {exprs : List Expr} (typed : ∀ expr ∈ exprs, expr.type?.isSome = true) :
    knownTypes? exprs = some (exprs.map Expr.type) := by
  induction exprs with
  | nil => rfl
  | cons expr rest induction =>
      obtain ⟨type, known⟩ := Option.isSome_iff_exists.mp (typed expr List.mem_cons_self)
      have others := induction fun expr member => typed expr (List.mem_cons_of_mem _ member)
      simp [knownTypes?, known, others, Expr.type_of_known known]

theorem check_target_writable {expr : Expr} (silent : (checkTarget expr).Silent)
    (writable : (checkTarget expr).value.2 = true) : expr.isWritable = true := by
  induction expr using Expr.parts_induction with
  | step expr induction =>
      cases expr with
      | reference info name binding =>
          cases binding with
          | constant => simp [checkTarget, Problem.severity] at silent
          | _ => rfl
      | component info part target =>
          simp only [checkTarget, Checked.silent_bind, Checked.value_bind] at silent writable
          exact induction target (by simp [Expr.parts]) silent.1 writable
      | _ => simp [checkTarget] at writable

section

variable {view : View} {info : ExprInfo} {name : String} {inner : Span} {arguments : List Expr}

theorem check_reference_typed (silent : (checkReference view info name).Silent) :
    (checkReference view info name).value.IsTyped view := by
  unfold checkReference at silent ⊢
  split at silent
  · rename_i found resolved
    exact ⟨found, resolved, rfl, rfl⟩
  · rename_i problem unresolved
    have error : problem.severity = .error := by
      unfold View.resolve at unresolved
      grind [Problem.severity]
    simp [error] at silent

theorem check_call_typed
    (typed : ∀ argument ∈ arguments, argument.type?.isSome = true)
    (silent : (checkCall view info name inner arguments).Silent) :
    (checkCall view info name inner arguments).value.IsTyped view := by
  have known := known_types_eq typed
  unfold checkCall at silent ⊢
  cases found : view.function? name with
  | some header =>
      simp only [found] at silent ⊢
      obtain ⟨form, fits⟩ := check_arguments_silent known silent
      rw [form]
      exact fun _ => ⟨header.returns, rfl, .script found fits⟩
  | none =>
      simp only [found] at silent ⊢
      split at silent
      · simp [Problem.severity] at silent
      · rename_i declared
        rw [if_neg declared]
        simp only [known] at silent ⊢
        unfold checkLibraryCall at silent ⊢
        cases resolved : view.library.resolve? name (arguments.map Expr.type) with
        | none =>
            simp only [resolved] at silent ⊢
            obtain ⟨type, form⟩ := check_unresolved_call_form known silent
            rw [form]
            exact fun library =>
              absurd silent (check_unresolved_call_reports library known resolved)
        | some overload =>
            have called := View.Calls.library found resolved
            simp only
            split <;> exact fun _ => ⟨overload.signature.returns, rfl, called⟩

theorem check_binary_typed {operator : BinaryOperator} {left right : Expr}
    (leftTyped : left.type?.isSome = true) (rightTyped : right.type?.isSome = true)
    (leftProper : left.isProper = true)
    (assignable : operator.isAssignment = true → left.isAssignable = true)
    (silent : (checkBinary info operator left right).Silent) :
    (checkBinary info operator left right).value.IsTyped view := by
  obtain ⟨type, ruled, form⟩ :=
    check_binary_silent leftTyped rightTyped leftProper assignable silent
  rw [form]
  refine ⟨ruled.symm, ?_⟩
  intro assigns
  unfold checkBinary at silent
  rw [if_pos (by simp [assigns, leftTyped])] at silent
  simp only [Checked.silent_bind] at silent
  refine check_target_writable silent.1 ?_
  rw [check_target_silent silent.1 leftProper]
  exact assignable assigns

theorem check_prefixed_typed {operator : PrefixOperator} {operand : Expr}
    (typed : operand.type?.isSome = true) (clean : operand.hasErrors = false)
    (operandProper : operand.isProper = true)
    (silent : (checkPrefixed info operator operand).Silent) :
    (checkPrefixed info operator operand).value.IsTyped view := by
  obtain ⟨_, _, stepped⟩ := check_prefixed_silent typed clean operandProper silent
  obtain ⟨type, known⟩ := Option.isSome_iff_exists.mp typed
  have same := Expr.type_of_known known
  unfold checkPrefixed at silent ⊢
  simp only [known] at silent ⊢
  by_cases step : operator.isStep = true
  · rw [if_pos step] at silent ⊢
    simp only [Checked.silent_bind, Checked.value_bind] at silent ⊢
    have target := check_target_silent silent.1 operandProper
    have assignable := (stepped step).1
    have writable := check_target_writable silent.1 (by rw [target]; exact assignable)
    simp only [target, assignable, if_true] at silent ⊢
    obtain ⟨result, found, form⟩ := type_prefixed_silent silent.2
    rw [form]
    exact ⟨by rw [same, found], fun _ => writable⟩
  · rw [if_neg step] at silent ⊢
    obtain ⟨result, found, form⟩ := type_prefixed_silent silent
    rw [form]
    exact ⟨by rw [same, found], fun steps => absurd steps step⟩

theorem check_postfixed_typed {operator : PostfixOperator} {operand : Expr}
    (typed : operand.type?.isSome = true) (operandProper : operand.isProper = true)
    (assignable : operand.isAssignable = true)
    (silent : (checkPostfixed info operator operand).Silent) :
    (checkPostfixed info operator operand).value.IsTyped view := by
  obtain ⟨type, known⟩ := Option.isSome_iff_exists.mp typed
  unfold checkPostfixed at silent ⊢
  simp only [Checked.silent_bind, Checked.value_bind] at silent ⊢
  have target := check_target_silent silent.1 operandProper
  rw [assignable] at target
  have writable := check_target_writable silent.1 (by rw [target])
  simp only [target, known] at silent ⊢
  cases found : operator.result? type with
  | none => simp [found, Problem.severity] at silent
  | some result => exact ⟨by rw [Expr.type_of_known known, found], writable⟩

theorem check_cast_typed {target : ValueType} {operand : Expr}
    (typed : operand.type?.isSome = true) (silent : (checkCast info target operand).Silent) :
    (checkCast info target operand).value.IsTyped view := by
  obtain ⟨type, known⟩ := Option.isSome_iff_exists.mp typed
  simp only [checkCast, known] at silent ⊢
  split at silent
  · rename_i casts
    rw [if_pos casts]
    exact ⟨rfl, by rwa [Expr.type_of_known known]⟩
  · simp [Problem.severity] at silent

theorem check_component_typed {part : Component} {target : Expr}
    (typed : target.type?.isSome = true) (silent : (checkComponent info part target).Silent) :
    (checkComponent info part target).value.IsTyped view := by
  obtain ⟨type, known⟩ := Option.isSome_iff_exists.mp typed
  simp only [checkComponent, known] at silent ⊢
  split at silent
  · rename_i present
    rw [if_pos present]
    exact ⟨rfl, by rwa [Expr.type_of_known known]⟩
  · simp [Problem.severity] at silent

end

theorem Expr.demand_admits {expr : Expr} {admits : ValueType → Bool} {problem : ValueType → Problem}
    (error : ∀ type, (problem type).severity = .error) (typed : expr.type?.isSome = true)
    (silent : (expr.demand admits problem).Silent) : admits expr.type = true := by
  obtain ⟨type, known⟩ := Option.isSome_iff_exists.mp typed
  rw [Expr.type_of_known known]
  exact (demand_silent error silent).2 type known

theorem check_elements_fit {view : View} {exprs : List Expr}
    (typed : ∀ expr ∈ exprs, (checkExpr view expr).value.type?.isSome = true)
    (silent : (checkExprs view demandElement exprs).Silent) :
    ∀ expr ∈ exprs, (checkExpr view expr).value.type.isListElement = true := by
  induction exprs with
  | nil => simp
  | cons expr rest induction =>
      simp only [checkExprs, Checked.silent_bind] at silent
      obtain ⟨⟨_, demanded⟩, others, _⟩ := silent
      intro found member
      rcases List.mem_cons.mp member with rfl | member
      · exact Expr.demand_admits (fun _ => rfl) (typed found List.mem_cons_self) demanded
      · exact induction (fun expr member => typed expr (List.mem_cons_of_mem _ member)) others
          found member

namespace Expr

variable {view : View} {expr : Expr}

theorem typed_of_parts (sound : expr.Sound)
    (silent : (checkExpr view expr).Silent)
    (parts : ∀ part ∈ expr.parts, (checkExpr view part).value.Firm ∧
      (checkExpr view part).value.hasErrors = false) :
    (checkExpr view expr).value.IsTyped view := by
  cases expr with
  | integer info raw | hex info raw | float info raw | string info raw => rfl
  | vector info x y z =>
      simp only [checkExpr, Checked.silent_bind, Checked.value_bind, Checked.value_pure] at silent ⊢
      obtain ⟨⟨_, first⟩, ⟨_, second⟩, ⟨_, third⟩, _⟩ := silent
      rw [demand_float_silent first, demand_float_silent second, demand_float_silent third]
      refine ⟨rfl, ?_⟩
      have fits (part : Expr) (member : part ∈ [x, y, z])
          (demanded : (demandFloat (checkExpr view part).value).Silent) :=
        demand_admits (fun _ => rfl) (parts part member).1.typed demanded
      simp [fits x (by simp) first, fits y (by simp) second, fits z (by simp) third]
  | rotation info x y z s =>
      simp only [checkExpr, Checked.silent_bind, Checked.value_bind, Checked.value_pure] at silent ⊢
      obtain ⟨⟨_, first⟩, ⟨_, second⟩, ⟨_, third⟩, ⟨_, fourth⟩, _⟩ := silent
      rw [demand_float_silent first, demand_float_silent second, demand_float_silent third,
        demand_float_silent fourth]
      refine ⟨rfl, ?_⟩
      have fits (part : Expr) (member : part ∈ [x, y, z, s])
          (demanded : (demandFloat (checkExpr view part).value).Silent) :=
        demand_admits (fun _ => rfl) (parts part member).1.typed demanded
      simp [fits x (by simp) first, fits y (by simp) second, fits z (by simp) third,
        fits s (by simp) fourth]
  | list info inner elements =>
      simp only [checkExpr, Checked.silent_bind, Checked.value_bind, Checked.value_pure] at silent ⊢
      refine ⟨rfl, ?_⟩
      rw [(check_exprs_silent (fun _ => demand_element_silent) silent.1).1]
      intro element member
      obtain ⟨source, inside, rfl⟩ := List.mem_map.mp member
      exact check_elements_fit (fun expr member => (parts expr member).1.typed) silent.1 source
        inside
  | reference info name binding => exact check_reference_typed silent
  | call info name inner arguments target =>
      simp only [checkExpr, Checked.silent_bind, Checked.value_bind] at silent ⊢
      refine check_call_typed ?_ silent.2
      rw [(check_exprs_silent (fun _ _ => rfl) silent.1).1]
      intro argument member
      obtain ⟨source, inside, rfl⟩ := List.mem_map.mp member
      exact (parts source inside).1.typed
  | binary info operator left right =>
      obtain ⟨leftFirm, _⟩ := parts left (by simp [Expr.parts])
      obtain ⟨rightFirm, _⟩ := parts right (by simp [Expr.parts])
      simp only [checkExpr, Checked.silent_bind, Checked.value_bind] at silent ⊢
      refine check_binary_typed leftFirm.typed rightFirm.typed leftFirm.proper ?_ silent.2.2
      intro assigns
      have shape := sound.precedenced
      simp only [isPrecedenced, assigns, if_true, Bool.and_eq_true] at shape
      exact assignable_of_check shape.2
  | prefixed info operator operand =>
      obtain ⟨firm, clean⟩ := parts operand (by simp [Expr.parts])
      simp only [checkExpr, Checked.silent_bind, Checked.value_bind] at silent ⊢
      exact check_prefixed_typed firm.typed clean firm.proper silent.2
  | postfixed info operator operand =>
      obtain ⟨firm, _⟩ := parts operand (by simp [Expr.parts])
      have shape := sound.precedenced
      simp only [isPrecedenced, Bool.and_eq_true] at shape
      simp only [checkExpr, Checked.silent_bind, Checked.value_bind] at silent ⊢
      exact check_postfixed_typed firm.typed firm.proper (assignable_of_check shape.2) silent.2
  | cast info target operand =>
      obtain ⟨firm, _⟩ := parts operand (by simp [Expr.parts])
      simp only [checkExpr, Checked.silent_bind, Checked.value_bind] at silent ⊢
      exact check_cast_typed firm.typed silent.2
  | grouped info inner => rfl
  | component info part target =>
      obtain ⟨firm, _⟩ := parts target (by simp [Expr.parts])
      simp only [checkExpr, Checked.silent_bind, Checked.value_bind] at silent ⊢
      exact check_component_typed firm.typed silent.2

/-- Every node of an expression that is read and checked without an error has the type that goes
with its parts. -/
theorem typed_check (sound : expr.Sound)
    (silent : (checkExpr view expr).Silent) :
    ∀ node ∈ (checkExpr view expr).value.nodes, node.Firm ∧ node.IsTyped view := by
  induction expr using parts_induction with
  | step expr induction =>
      have firm (part : Expr) (member : part ∈ expr.parts) :
          ∀ node ∈ (checkExpr view part).value.nodes, node.Firm := fun node inside =>
        (firm_check (sound_part sound member) (silent_part silent member) node inside).1
      have known (part : Expr) (member : part ∈ expr.parts) :
          (checkExpr view part).value.Firm ∧ (checkExpr view part).value.hasErrors = false :=
        ⟨firm part member _ (mem_nodes_self _),
          clean_of_nodes fun node inside => (firm part member node inside).whole⟩
      intro node inside
      refine ⟨(firm_check sound silent node inside).1, ?_⟩
      rcases mem_nodes.mp inside with rfl | ⟨part, member, inside⟩
      · exact typed_of_parts sound silent known
      · rw [(settles_check sound silent known).parts] at member
        obtain ⟨source, sourceMember, rfl⟩ := List.mem_map.mp member
        exact (induction source sourceMember (sound_part sound sourceMember)
          (silent_part silent sourceMember) node inside).2

end Expr

end Lsl
