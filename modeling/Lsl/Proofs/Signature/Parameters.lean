import Lsl.Signature

/-!
What one call that adds a parameter does, and what a signature is made of after several of them. A
parameter that may be added is put behind the others and gets the index of its place; a call that is
refused writes nothing.
-/

set_option autoImplicit false

namespace Lsl

theorem bind_eq_ok {ε α β : Type} {first : Except ε α} {next : α → Except ε β} {value : β} :
    first >>= next = .ok value ↔ ∃ found, first = .ok found ∧ next found = .ok value := by
  cases first <;> simp [bind, Except.bind]

/-- Where keys are distinct, a key is looked up as what it stands with. -/
theorem lookup_of_mem {κ α : Type} [BEq κ] [LawfulBEq κ] {key : κ} {value : α}
    {pairs : List (κ × α)} (distinct : (pairs.map Prod.fst).Nodup) (member : (key, value) ∈ pairs) :
    pairs.lookup key = some value := by
  obtain ⟨front, back, rfl⟩ := List.append_of_mem member
  refine List.lookup_eq_some_iff.mpr ⟨front, back, rfl, fun pair earlier => ?_⟩
  rw [List.map_append, List.map_cons, List.nodup_append] at distinct
  have apart : pair.1 ≠ key :=
    distinct.2.2 pair.1 (List.mem_map_of_mem earlier) key List.mem_cons_self
  simpa using Ne.symm apart

theorem identifier_checked {name : String} (named : isIdentifier name = true) :
    checkIdentifier name = .ok () := by
  rw [checkIdentifier, if_pos named]

theorem identifier_refused {name : String} (other : ¬ isIdentifier name = true) :
    checkIdentifier name = .error (.invalidSymbolName name) := by
  rw [checkIdentifier, if_neg other]

theorem identifier_of_checked {name : String} {checked : Unit}
    (passed : checkIdentifier name = .ok checked) : isIdentifier name = true := by
  unfold checkIdentifier at passed
  split at passed
  · assumption
  · cases passed

namespace Drafting

variable {Draft Result : Type} (draft : Draft)

theorem run_passed {Value : Type} (value : Value) (next : Value → Drafting Draft Result) :
    ExceptT.run (liftM (Except.ok value : Except Failure Value) >>= next) draft =
      (next value).run draft := rfl

theorem run_refused {Value : Type} (failure : Failure) (next : Value → Drafting Draft Result) :
    ExceptT.run (liftM (Except.error failure : Except Failure Value) >>= next) draft =
      (.error failure, draft) := rfl

theorem run_get (next : Draft → Drafting Draft Result) :
    ExceptT.run (get >>= next) draft = (next draft).run draft := rfl

/-- What each call preserves holds after all of them. -/
theorem after_invariant {holds : Draft → Prop} {calls : List (Drafting Draft Unit)} {start : Draft}
    (initial : holds start)
    (step : ∀ call ∈ calls, ∀ draft, holds draft → holds (call.run draft).2) :
    holds (Drafting.after start calls) := by
  induction calls generalizing start with
  | nil => exact initial
  | cons call calls induction =>
      have next := step call List.mem_cons_self start initial
      exact induction next fun later member => step later (List.mem_cons_of_mem _ member)

end Drafting

namespace Parameter

/-- Parameters with the indices of their places, counted from a number on. -/
def numberedFrom (start : Nat) (parameters : List Parameter) : List Parameter :=
  (parameters.zipIdx start).map fun (parameter, place) => { parameter with index := place }

/-- Parameters with the indices of their places. -/
abbrev numbered (parameters : List Parameter) : List Parameter := numberedFrom 0 parameters

theorem numbered_from_cons (start : Nat) (parameter : Parameter) (parameters : List Parameter) :
    numberedFrom start (parameter :: parameters) =
      { parameter with index := start } :: numberedFrom (start + 1) parameters := rfl

theorem forall_numbered_from {holds : Parameter → Prop}
    (same : ∀ parameter index, holds parameter → holds { parameter with index }) {start : Nat}
    {parameters : List Parameter} (all : ∀ parameter ∈ parameters, holds parameter) :
    ∀ parameter ∈ numberedFrom start parameters, holds parameter := by
  intro found member
  obtain ⟨⟨parameter, place⟩, inside, rfl⟩ := List.mem_map.mp member
  exact same parameter place (all parameter (List.fst_mem_of_mem_zipIdx inside))

end Parameter

open Parameter (placed numbered numberedFrom)

namespace EventSignature

structure Admits (signature : EventSignature) (parameter : Parameter) : Prop where
  named : isIdentifier parameter.name = true
  single : parameter.variadic = false
  valued : parameter.type ≠ .void
  fresh : ∀ other ∈ signature.parameters, other.name ≠ parameter.name

theorem add_run (signature : EventSignature) (parameter : Parameter) :
    (signature.Admits parameter ∧ (add parameter).run signature =
      (.ok (), { signature with parameters := placed signature.parameters parameter })) ∨
    ¬ signature.Admits parameter ∧
      ∃ failure, (add parameter).run signature = (.error failure, signature) := by
  unfold add
  by_cases named : isIdentifier parameter.name = true
  case neg =>
    rw [identifier_refused named, Drafting.run_refused]
    exact .inr ⟨fun admits => named admits.named, _, rfl⟩
  rw [identifier_checked named, Drafting.run_passed, Drafting.run_get]
  by_cases single : parameter.variadic = true
  · simp only [if_pos single]
    exact .inr ⟨fun admits => by simp [admits.single] at single, _, rfl⟩
  by_cases nothing : parameter.type = .void
  · simp only [if_neg single, if_pos nothing]
    exact .inr ⟨fun admits => admits.valued nothing, _, rfl⟩
  by_cases taken : signature.parameters.any (·.name = parameter.name) = true
  · simp only [if_neg single, if_neg nothing, if_pos taken]
    obtain ⟨other, member, same⟩ := List.any_eq_true.mp taken
    exact .inr ⟨fun admits => admits.fresh other member (by simpa using same), _, rfl⟩
  · simp only [if_neg single, if_neg nothing, if_neg taken]
    exact .inl ⟨⟨named, by simpa using single, nothing, by simpa using taken⟩, rfl⟩

/-- An addition succeeds for what the event admits, and for nothing else. -/
theorem add_parameter_iff {signature extended : EventSignature} {parameter : Parameter} :
    signature.addParameter parameter = .ok extended ↔ signature.Admits parameter ∧
      extended = { signature with parameters := placed signature.parameters parameter } := by
  unfold addParameter
  obtain ⟨admits, ran⟩ | ⟨refused, failure, ran⟩ := signature.add_run parameter
  · rw [ran, Except.ok.injEq]
    exact ⟨fun same => ⟨admits, same.symm⟩, fun same => same.2.symm⟩
  · rw [ran]
    exact ⟨fun same => (nomatch same), fun same => absurd same.1 refused⟩

theorem fold_parameters {signature result : EventSignature} {parameters : List Parameter}
    (built : parameters.foldlM addParameter signature = .ok result) :
    result = { signature with
      parameters := signature.parameters ++ numberedFrom signature.parameters.length parameters } := by
  induction parameters generalizing signature with
  | nil =>
      cases built
      simp [numberedFrom]
  | cons parameter parameters induction =>
      rw [List.foldlM_cons] at built
      obtain ⟨extended, added, built⟩ := bind_eq_ok.mp built
      obtain ⟨_, rfl⟩ := add_parameter_iff.mp added
      rw [induction built, Parameter.numbered_from_cons]
      simp [placed]

theorem of_parameters_ok {name : String} {parameters : List Parameter}
    {signature : EventSignature} (built : ofParameters name parameters = .ok signature) :
    signature = ⟨name, numbered parameters⟩ := by
  obtain ⟨bare, named, built⟩ := bind_eq_ok.mp built
  obtain ⟨_, _, named⟩ := bind_eq_ok.mp named
  cases named
  simpa using fold_parameters built

theorem of_parameters_numbered (name : String) (start : Nat) (parameters : List Parameter) :
    ofParameters name (numberedFrom start parameters) = ofParameters name parameters := by
  have folds (signature : EventSignature) :
      (numberedFrom start parameters).foldlM addParameter signature =
        parameters.foldlM addParameter signature := by
    induction parameters generalizing start signature with
    | nil => rfl
    | cons parameter parameters induction =>
        rw [Parameter.numbered_from_cons, List.foldlM_cons, List.foldlM_cons]
        exact congrArg _ (funext fun extended => induction (start + 1) extended)
  simp only [ofParameters, folds]

end EventSignature

namespace FunctionSignature

structure Admits (signature : FunctionSignature) (parameter : Parameter) : Prop where
  named : isIdentifier parameter.name = true
  steady : signature.isVariadic = false
  valued : parameter.type = .void → parameter.variadic = true
  fresh : ∀ other ∈ signature.parameters, other.name ≠ parameter.name

theorem add_run (signature : FunctionSignature) (parameter : Parameter) :
    (signature.Admits parameter ∧ (add parameter).run signature =
      (.ok (), { signature with parameters := placed signature.parameters parameter })) ∨
    ¬ signature.Admits parameter ∧
      ∃ failure, (add parameter).run signature = (.error failure, signature) := by
  unfold add
  by_cases named : isIdentifier parameter.name = true
  case neg =>
    rw [identifier_refused named, Drafting.run_refused]
    exact .inr ⟨fun admits => named admits.named, _, rfl⟩
  rw [identifier_checked named, Drafting.run_passed, Drafting.run_get]
  by_cases closed : signature.isVariadic = true
  · simp only [if_pos closed]
    exact .inr ⟨fun admits => by simp [admits.steady] at closed, _, rfl⟩
  by_cases nothing : parameter.type = .void ∧ ¬ parameter.variadic = true
  · simp only [if_neg closed, if_pos nothing]
    exact .inr ⟨fun admits => nothing.2 (admits.valued nothing.1), _, rfl⟩
  by_cases taken : signature.parameters.any (·.name = parameter.name) = true
  · simp only [if_neg closed, if_neg nothing, if_pos taken]
    obtain ⟨other, member, same⟩ := List.any_eq_true.mp taken
    exact .inr ⟨fun admits => admits.fresh other member (by simpa using same), _, rfl⟩
  · simp only [if_neg closed, if_neg nothing, if_neg taken]
    exact .inl ⟨⟨named, by simpa using closed, by simpa using nothing, by simpa using taken⟩, rfl⟩

theorem add_parameter_iff {signature extended : FunctionSignature} {parameter : Parameter} :
    signature.addParameter parameter = .ok extended ↔ signature.Admits parameter ∧
      extended = { signature with parameters := placed signature.parameters parameter } := by
  unfold addParameter
  obtain ⟨admits, ran⟩ | ⟨refused, failure, ran⟩ := signature.add_run parameter
  · rw [ran, Except.ok.injEq]
    exact ⟨fun same => ⟨admits, same.symm⟩, fun same => same.2.symm⟩
  · rw [ran]
    exact ⟨fun same => (nomatch same), fun same => absurd same.1 refused⟩

/-- What a signature has and every addition preserves, it has when it is put together. -/
theorem fold_invariant {holds : FunctionSignature → Prop}
    (step : ∀ {signature : FunctionSignature} {parameter : Parameter}, holds signature →
      signature.Admits parameter →
        holds { signature with parameters := placed signature.parameters parameter })
    {signature result : FunctionSignature} {parameters : List Parameter} (held : holds signature)
    (built : parameters.foldlM addParameter signature = .ok result) :
    holds result ∧ result = { signature with
      parameters := signature.parameters ++ numberedFrom signature.parameters.length parameters } := by
  induction parameters generalizing signature with
  | nil =>
      cases built
      exact ⟨held, by simp [numberedFrom]⟩
  | cons parameter parameters induction =>
      rw [List.foldlM_cons] at built
      obtain ⟨extended, added, built⟩ := bind_eq_ok.mp built
      obtain ⟨admits, rfl⟩ := add_parameter_iff.mp added
      obtain ⟨kept, same⟩ := induction (step held admits) built
      refine ⟨kept, ?_⟩
      rw [same, Parameter.numbered_from_cons]
      simp [placed]

/-- With no variadic parameter at the end there is none at all. -/
def IsPlain (signature : FunctionSignature) : Prop :=
  signature.isVariadic = false → ∀ parameter ∈ signature.parameters, parameter.variadic = false

theorem add_parameter_plain {signature : FunctionSignature} {parameter : Parameter}
    (plain : signature.IsPlain) (admits : signature.Admits parameter) :
    IsPlain { signature with parameters := placed signature.parameters parameter } := by
  intro last found member
  rcases List.mem_append.mp member with member | member
  · exact plain admits.steady found member
  · obtain rfl := List.mem_singleton.mp member
    simpa [isVariadic, placed] using last

theorem of_parameters_ok {returns : ValueType} {name : String} {parameters : List Parameter}
    {signature : FunctionSignature} (built : ofParameters returns name parameters = .ok signature) :
    signature.IsPlain ∧ signature = ⟨name, returns, numbered parameters⟩ := by
  obtain ⟨bare, named, built⟩ := bind_eq_ok.mp built
  obtain ⟨_, _, named⟩ := bind_eq_ok.mp named
  cases named
  have empty : IsPlain ⟨name, returns, []⟩ := fun _ parameter member => by simp at member
  simpa using fold_invariant add_parameter_plain empty built

theorem of_parameters_numbered (returns : ValueType) (name : String) (start : Nat)
    (parameters : List Parameter) :
    ofParameters returns name (numberedFrom start parameters) =
      ofParameters returns name parameters := by
  have folds (signature : FunctionSignature) :
      (numberedFrom start parameters).foldlM addParameter signature =
        parameters.foldlM addParameter signature := by
    induction parameters generalizing start signature with
    | nil => rfl
    | cons parameter parameters induction =>
        rw [Parameter.numbered_from_cons, List.foldlM_cons, List.foldlM_cons]
        exact congrArg _ (funext fun extended => induction (start + 1) extended)
  simp only [ofParameters, folds]

theorem of_own_parameters {returns : ValueType} {name : String} {parameters : List Parameter}
    {signature : FunctionSignature} (built : ofParameters returns name parameters = .ok signature) :
    ofParameters signature.returns signature.name signature.parameters = .ok signature := by
  obtain ⟨_, rfl⟩ := of_parameters_ok built
  rw [of_parameters_numbered]
  exact built

end FunctionSignature

end Lsl
