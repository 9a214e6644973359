import Lsl.Proofs.Checking.Readiness
import Mathlib.Data.List.Pairwise

/-!
Calls of library functions and the overloads they are resolved to. What takes arguments as they are
also takes them converted, so an overload is found whenever one will do. No two overloads of a
library agree, so the signature of an overload leads back to it. And where there is but one overload,
an error is reported at its arguments exactly when it does not take them.
-/

set_option autoImplicit false

namespace Lsl

namespace FunctionSignature

theorem agrees_iff {first second : FunctionSignature} :
    first.agrees second = true ↔ first.name = second.name ∧
      first.parameters.map (fun parameter => (parameter.type, parameter.variadic)) =
        second.parameters.map (fun parameter => (parameter.type, parameter.variadic)) := by
  simp [agrees]

theorem agrees_comm (first second : FunctionSignature) :
    first.agrees second = second.agrees first := by
  rw [Bool.eq_iff_iff, agrees_iff, agrees_iff]
  constructor <;> exact fun same => ⟨same.1.symm, same.2.symm⟩

/-- A value that fits as it is needs no conversion. Only `void` converts to nothing, itself
included. -/
theorem argument_fits_of_exact {argument expected : ValueType} (valued : argument ≠ .void)
    (fits : argumentFits true argument expected = true) :
    argumentFits false argument expected = true := by
  have same : argument = expected := by simpa [argumentFits] using fits
  subst same
  cases argument with
  | void => exact absurd rfl valued
  | _ => rfl

theorem arguments_fit_of_exact {parameters : List Parameter} {types : List ValueType}
    (valued : ValueType.void ∉ types) (fits : argumentsFit true parameters types = true) :
    argumentsFit false parameters types = true := by
  induction parameters generalizing types with
  | nil =>
      cases types with
      | nil => rfl
      | cons type types => cases fits
  | cons parameter parameters induction =>
      by_cases tail : parameter.variadic = true
      · simp only [argumentsFit, if_pos tail, List.all_eq_true, Bool.and_eq_true,
          Bool.or_eq_true] at fits ⊢
        intro type member
        have known : type ≠ .void := fun same => valued (same ▸ member)
        have admitted := (fits type member).2
        exact ⟨(fits type member).1, admitted.imp_right (argument_fits_of_exact known)⟩
      · cases types with
        | nil => simp [argumentsFit, tail] at fits
        | cons type types =>
            have known : type ≠ .void := fun same => valued (same ▸ List.mem_cons_self)
            have others : ValueType.void ∉ types := fun inside =>
              valued (List.mem_cons_of_mem _ inside)
            simp only [argumentsFit, if_neg tail, Bool.and_eq_true] at fits ⊢
            exact ⟨argument_fits_of_exact known fits.1, induction others fits.2⟩

theorem accepts_of_exact {signature : FunctionSignature} {types : List ValueType}
    (valued : ValueType.void ∉ types) (accepts : signature.accepts types true = true) :
    signature.accepts types false = true :=
  arguments_fit_of_exact valued accepts

theorem arguments_fit_iff_converts {parameters : List Parameter} {types : List ValueType}
    (plain : ∀ parameter ∈ parameters, parameter.variadic = false) :
    argumentsFit false parameters types = true ↔
      List.Forall₂ (fun given wanted => given.convertsTo wanted = true) types
        (parameters.map (·.type)) := by
  constructor
  · intro fits
    induction parameters generalizing types with
    | nil =>
        cases types with
        | nil => exact .nil
        | cons type types => cases fits
    | cons parameter parameters induction =>
        have alone := plain parameter List.mem_cons_self
        have others := fun found member => plain found (List.mem_cons_of_mem _ member)
        cases types with
        | nil => simp [argumentsFit, alone] at fits
        | cons type types =>
            simp only [argumentsFit, alone, Bool.false_eq_true, if_false, Bool.and_eq_true] at fits
            exact .cons fits.1 (induction others fits.2)
  · exact arguments_fit_of_converts plain

end FunctionSignature

section

variable {arguments : List Expr} {types expected : List ValueType}

theorem fit_arguments_of_converts {function : String} {place : Nat}
    (known : knownTypes? arguments = some types)
    (converts : List.Forall₂ (fun given wanted => given.convertsTo wanted = true) types expected) :
    (fitArguments function place arguments expected).Silent := by
  induction arguments generalizing place types expected with
  | nil => simp [fitArguments, Checked.Silent]
  | cons argument arguments induction =>
      simp only [knownTypes?] at known
      split at known
      · rename_i given others here behind
        cases known
        cases converts with
        | cons fits converts =>
            simp only [fitArguments, Checked.silent_bind, Expr.demand, here, fits, if_true]
            exact ⟨by simp [Checked.Silent], induction behind converts, by simp [Checked.Silent]⟩
      · cases known

theorem known_types_length (known : knownTypes? arguments = some types) :
    arguments.length = types.length := by
  induction arguments generalizing types with
  | nil =>
      simp only [knownTypes?, Option.some.injEq] at known
      simp [← known]
  | cons argument arguments induction =>
      simp only [knownTypes?] at known
      split at known
      · rename_i given others here behind
        cases known
        simp [induction behind]
      · cases known

/-- An error is reported at arguments exactly when they cannot be passed one by one. -/
theorem check_arguments_silent_iff {info : ExprInfo} {name : String} {inner : Span}
    {target : CallTarget} (known : knownTypes? arguments = some types) :
    (checkArguments info name inner arguments target expected).Silent ↔
      List.Forall₂ (fun given wanted => given.convertsTo wanted = true) types expected := by
  constructor
  · exact fun silent => (check_arguments_silent known silent).2
  · intro converts
    have same : arguments.length = expected.length :=
      (known_types_length known).trans converts.length_eq
    simp only [checkArguments, same, ne_eq, not_true_eq_false, if_false, Checked.silent_bind]
    exact ⟨fit_arguments_of_converts known converts, by simp [Checked.Silent]⟩

end

namespace Library

variable {library : Library} {name : String} {types : List ValueType}

def Distinct (library : Library) : Prop :=
  library.functions.Pairwise fun first second => first.signature.agrees second.signature = false

theorem Distinct.add_function {extended : Library} {function : LibraryFunction} {kept : Bool}
    (distinct : library.Distinct) (added : library.addFunction function = .ok (extended, kept)) :
    extended.Distinct := by
  unfold Library.addFunction at added
  split at added
  · cases added
    exact distinct
  · split at added
    · cases added
    · rename_i apart
      cases added
      refine List.pairwise_append.mpr ⟨distinct, List.pairwise_singleton _ _, ?_⟩
      intro other member new alone
      have same : new = function := List.mem_singleton.mp alone
      subst same
      simp only [List.any_eq_true, not_exists, not_and, Bool.not_eq_true] at apart
      by_cases named : other.name = new.name
      · exact apart other (mem_overloads.mpr ⟨member, named⟩)
      · exact Bool.eq_false_iff.mpr fun agree => named (FunctionSignature.agrees_iff.mp agree).1

theorem functions_of_add_event {extended : Library} {event : LibraryEvent} {kept : Bool}
    (added : library.addEvent event = .ok (extended, kept)) :
    extended.functions = library.functions := by
  unfold addEvent at added
  split at added
  · cases added
    rfl
  · split at added <;> cases added
    rfl

theorem functions_of_add_constant {extended : Library} {constant : LibraryConstant} {kept : Bool}
    (added : library.addConstant constant = .ok (extended, kept)) :
    extended.functions = library.functions := by
  unfold addConstant at added
  split at added
  · cases added
    rfl
  · split at added <;> cases added
    rfl

theorem Grown.distinct (grown : library.Grown) : library.Distinct := by
  induction grown with
  | empty made =>
      obtain ⟨_, _, rest⟩ := bind_eq_ok.mp made
      cases rest
      exact List.Pairwise.nil
  | function _ _ added induction => exact induction.add_function added
  | event _ added induction =>
      rw [Distinct, functions_of_add_event added]
      exact induction
  | constant _ _ added induction =>
      rw [Distinct, functions_of_add_constant added]
      exact induction

theorem Distinct.eq_of_agrees {first second : LibraryFunction} (distinct : library.Distinct)
    (left : first ∈ library.functions) (right : second ∈ library.functions)
    (agree : first.signature.agrees second.signature = true) : first = second := by
  have symmetric : Std.Symm fun first second : LibraryFunction =>
      first.signature.agrees second.signature = false :=
    ⟨fun one other apart => (FunctionSignature.agrees_comm _ _).trans apart⟩
  by_contra differ
  have apart := List.Pairwise.forall distinct left right differ
  rw [agree] at apart
  cases apart

theorem Distinct.function_of_mem {function : LibraryFunction} (distinct : library.Distinct)
    (member : function ∈ library.functions) :
    library.function? function.signature = some function := by
  have inside : function ∈ library.overloads function.signature.name :=
    mem_overloads.mpr ⟨member, rfl⟩
  have itself : function.signature.agrees function.signature = true :=
    FunctionSignature.agrees_iff.mpr ⟨rfl, rfl⟩
  cases found : library.function? function.signature with
  | none => exact absurd itself (List.find?_eq_none.mp found function inside)
  | some other =>
      have agree := List.find?_some found
      have present := (mem_overloads.mp (List.mem_of_find?_eq_some found)).1
      rw [distinct.eq_of_agrees present member agree]

/-- An overload that is found takes the arguments, as they are if any overload does. -/
theorem accepts_of_resolved {chosen : LibraryFunction}
    (resolved : library.resolve? name types = some chosen) :
    chosen.signature.accepts types true = true ∨
      chosen.signature.accepts types false = true ∧
        ∀ overload ∈ library.overloads name, overload.signature.accepts types true = false := by
  unfold resolve? at resolved
  split at resolved
  · rename_i found located
    cases resolved
    left
    simpa using List.find?_some located
  · rename_i located
    right
    refine ⟨by simpa using List.find?_some resolved, fun overload member => ?_⟩
    simpa using List.find?_eq_none.mp located overload member

theorem resolve_eq_none_iff (valued : ValueType.void ∉ types) :
    library.resolve? name types = none ↔
      ∀ overload ∈ library.overloads name, overload.signature.accepts types false = false := by
  constructor
  · exact fun unresolved overload member => accepts_of_resolve unresolved member
  · intro refused
    cases resolved : library.resolve? name types with
    | none => rfl
    | some chosen =>
        have accepted : chosen.signature.accepts types false = true := by
          rcases accepts_of_resolved resolved with exact_ | ⟨converted, _⟩
          · exact FunctionSignature.accepts_of_exact valued exact_
          · exact converted
        rw [refused chosen (mem_of_resolve resolved)] at accepted
        cases accepted

end Library

/-- A call of a library function is resolved exactly if an overload takes its arguments. The overload
it is resolved to takes them, as they are if any overload does, and the call leads back to it and to
no other. If it is the only one and takes no number of arguments, what is reported of the arguments
tells whether it takes them. -/
theorem calls_resolved {library : Library} (grown : library.Grown) (name : String)
    {types : List ValueType} (valued : ValueType.void ∉ types) :
    ((library.resolve? name types).isSome = true ↔
      ∃ overload ∈ library.overloads name, overload.signature.accepts types false = true) ∧
    (∀ chosen, library.resolve? name types = some chosen →
      chosen ∈ library.overloads name ∧ chosen.signature.accepts types false = true ∧
      ((∃ overload ∈ library.overloads name, overload.signature.accepts types true = true) →
        chosen.signature.accepts types true = true) ∧
      library.function? chosen.signature = some chosen ∧
      ∀ (view : View) (info : ExprInfo) (inner : Span) (arguments : List Expr),
        view.library = library →
        (checkLibraryCall view info name inner arguments types).value =
          .call { info with type := some chosen.signature.returns } name inner arguments
            (.library chosen.signature)) ∧
    (∀ only, library.overloads name = [only] → only.signature.isVariadic = false →
      ∀ (info : ExprInfo) (inner : Span) (arguments : List Expr) (target : CallTarget),
        knownTypes? arguments = some types →
        (library.resolve? name types = none ↔
          ¬ (checkArguments info name inner arguments target
            (only.signature.parameters.map (·.type))).Silent)) := by
  refine ⟨?_, fun chosen resolved => ?_, fun only alone last info inner arguments target known => ?_⟩
  · rw [← not_iff_not, Bool.not_eq_true, Option.isSome_eq_false_iff, Option.isNone_iff_eq_none,
      Library.resolve_eq_none_iff valued]
    simp
  · have member := Library.mem_of_resolve resolved
    have inside := (Library.mem_overloads.mp member).1
    refine ⟨member, ?_, ?_, grown.distinct.function_of_mem inside, ?_⟩
    · rcases Library.accepts_of_resolved resolved with exact_ | ⟨converted, _⟩
      · exact FunctionSignature.accepts_of_exact valued exact_
      · exact converted
    · rintro ⟨overload, other, fits⟩
      rcases Library.accepts_of_resolved resolved with exact_ | ⟨_, refused⟩
      · exact exact_
      · rw [refused overload other] at fits
        cases fits
    · intro view info inner arguments same
      simp only [checkLibraryCall, same, resolved]
      split <;> rfl
  · have member : only ∈ library.overloads name := by simp [alone]
    have built := grown.well_formed.functions only (Library.mem_overloads.mp member).1
    have plain := (FunctionSignature.of_parameters_ok built).1 last
    rw [Library.resolve_eq_none_iff valued, check_arguments_silent_iff known, alone,
      List.forall_mem_singleton, FunctionSignature.accepts,
      ← FunctionSignature.arguments_fit_iff_converts plain, Bool.not_eq_true]

/-- The second overload takes an integer as it is, so it comes before the first, which would have to
convert it. A text is refused by the only overload of another name, and reported. -/
theorem exact_overload_resolved :
    let pick := fun type : ValueType =>
      (⟨⟨"pick", type, [⟨"value", type, false, 0⟩]⟩, { subsets := ["lsl"] }⟩ : LibraryFunction)
    let halve : LibraryFunction :=
      ⟨⟨"halve", .float, [⟨"value", .float, false, 0⟩]⟩, { subsets := ["lsl"] }⟩
    let library : Library :=
      { active := ["lsl"], functions := [pick .float, pick .integer, halve] }
    let text : Expr := .string { type := some .string, span := .point .origin } "\"1\""
    library.Grown ∧ ValueType.void ∉ [ValueType.integer] ∧ ValueType.void ∉ [ValueType.string] ∧
      library.resolve? "pick" [.integer] = some (pick .integer) ∧
      library.function? (pick .integer).signature = some (pick .integer) ∧
      library.overloads "halve" = [halve] ∧ library.resolve? "halve" [.string] = none ∧
      ¬ (checkArguments { span := .point .origin } "halve" (.point .origin) [text] .unresolved
        [.float]).Silent := by
  intro pick halve library text
  have built : ∀ function ∈ library.functions, FunctionSignature.ofParameters
      function.signature.returns function.signature.name function.signature.parameters =
        .ok function.signature := by decide
  have empty : Library.ofSubsets ["lsl"] = .ok { active := ["lsl"] } := by decide
  have first : ({ active := ["lsl"], functions := [pick .float] } : Library).Grown :=
    .function (.empty empty) (built (pick .float) (by decide)) rfl
  have second : ({ active := ["lsl"], functions := [pick .float, pick .integer] } : Library).Grown :=
    .function first (built (pick .integer) (by decide)) rfl
  have grown : library.Grown := .function second (built halve (by decide)) rfl
  have numeric : ValueType.void ∉ [ValueType.integer] := by decide
  have textual : ValueType.void ∉ [ValueType.string] := by decide
  have resolved : library.resolve? "pick" [.integer] = some (pick .integer) := by decide
  have sole : library.overloads "halve" = [halve] := by decide
  have refused : library.resolve? "halve" [.string] = none := by decide
  have found := (calls_resolved grown "pick" numeric).2.1 _ resolved
  have reported := (calls_resolved grown "halve" textual).2.2 halve sole rfl
    { span := .point .origin } (.point .origin) [text] .unresolved rfl
  exact ⟨grown, numeric, textual, resolved, found.2.2.2.1, sole, refused, reported.mp refused⟩

end Lsl
