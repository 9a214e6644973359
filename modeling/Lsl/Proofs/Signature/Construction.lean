import Lsl.Proofs.Checking.Overloads
import Lsl.Proofs.Signature.Parameters

/-!
Signatures under construction. What every call that adds a parameter preserves holds after any
sequence of calls, whichever of them fail, and on a signature of this kind arguments are compared with
no parameter that is not there. Signatures that agree are the same to a hasher.
-/

set_option autoImplicit false

namespace Lsl

namespace Parameter

variable {parameters : List Parameter} {parameter : Parameter}

/-- Parameters with names of their own, each at the place it says. -/
structure InPlace (parameters : List Parameter) : Prop where
  named : ∀ parameter ∈ parameters, isIdentifier parameter.name = true
  distinct : (parameters.map (·.name)).Nodup
  numbered : ∀ (place : Nat) (parameter : Parameter),
    parameters[place]? = some parameter → parameter.index = place

theorem in_place_nil : InPlace [] where
  named := by simp
  distinct := List.nodup_nil
  numbered := by simp

theorem placed_getElem? {place : Nat} {found : Parameter}
    (here : (placed parameters parameter)[place]? = some found) :
    parameters[place]? = some found ∨
      place = parameters.length ∧ found = { parameter with index := parameters.length } := by
  rw [placed, List.getElem?_append] at here
  split at here
  · exact .inl here
  · rename_i outside
    obtain ⟨inside, rfl⟩ := List.getElem?_eq_some_iff.mp here
    simp only [List.length_singleton, Nat.lt_one_iff] at inside
    exact .inr ⟨by omega, by simp⟩

theorem mem_placed {found : Parameter} :
    found ∈ placed parameters parameter ↔
      found ∈ parameters ∨ found = { parameter with index := parameters.length } := by
  simp [placed]

theorem InPlace.placed (inPlace : InPlace parameters)
    (named : isIdentifier parameter.name = true)
    (fresh : ∀ other ∈ parameters, other.name ≠ parameter.name) :
    InPlace (Parameter.placed parameters parameter) where
  named := by
    intro found member
    obtain member | rfl := mem_placed.mp member
    · exact inPlace.named found member
    · exact named
  distinct := by
    rw [Parameter.placed, List.map_append, List.map_singleton, List.nodup_append]
    refine ⟨inPlace.distinct, List.nodup_singleton _, ?_⟩
    intro first before second behind
    obtain ⟨other, member, rfl⟩ := List.mem_map.mp before
    obtain rfl := List.mem_singleton.mp behind
    exact fresh other member
  numbered := by
    intro place found here
    obtain here | ⟨rfl, rfl⟩ := placed_getElem? here
    · exact inPlace.numbered place found here
    · rfl

end Parameter

open Parameter (InPlace in_place_nil)

/-! ### Events -/

namespace EventSignature

theorem agrees_iff {first second : EventSignature} :
    first.agrees second = true ↔ first.name = second.name ∧ first.types = second.types := by
  simp [agrees]

theorem agrees_equivalence :
    Equivalence fun first second : EventSignature => first.agrees second = true where
  refl signature := agrees_iff.mpr ⟨rfl, rfl⟩
  symm same := by
    obtain ⟨names, types⟩ := agrees_iff.mp same
    exact agrees_iff.mpr ⟨names.symm, types.symm⟩
  trans front back := by
    obtain ⟨names, types⟩ := agrees_iff.mp front
    obtain ⟨others, behind⟩ := agrees_iff.mp back
    exact agrees_iff.mpr ⟨names.trans others, types.trans behind⟩

/-- Events give the same to a hasher when they agree, and only then. -/
theorem hashed_eq_iff {first second : EventSignature} :
    first.hashed = second.hashed ↔ first.agrees second = true := by
  have types (signature : EventSignature) :
      (signature.parameters.map fun parameter => Hashed.type parameter.type) =
        signature.types.map .type := by
    simp [EventSignature.types]
  rw [agrees_iff, hashed, hashed, types, types, List.cons.injEq, Hashed.name.injEq]
  refine and_congr_right fun _ => List.map_inj_right ?_
  exact fun _ _ same => Hashed.type.inj same

/-- What holds of an event however it is built. -/
structure WellFormed (signature : EventSignature) : Prop where
  inPlace : InPlace signature.parameters
  single : ∀ parameter ∈ signature.parameters, parameter.variadic = false
  valued : ∀ parameter ∈ signature.parameters, parameter.type ≠ .void

theorem of_name_well_formed {name : String} (named : isIdentifier name = true) :
    ∃ fresh, ofName name = .ok fresh ∧ fresh.WellFormed := by
  refine ⟨⟨name, []⟩, ?_, in_place_nil, by simp, by simp⟩
  rw [ofName, identifier_checked named]
  rfl

theorem add_refused {signature : EventSignature} {parameter : Parameter} {failure : Failure}
    (refused : ((add parameter).run signature).1 = .error failure) :
    ((add parameter).run signature).2 = signature := by
  obtain ⟨_, ran⟩ | ⟨_, _, ran⟩ := signature.add_run parameter <;> rw [ran] at refused ⊢
  cases refused

theorem add_well_formed {signature : EventSignature} (wellFormed : signature.WellFormed)
    (parameter : Parameter) : ((add parameter).run signature).2.WellFormed := by
  obtain ⟨admits, ran⟩ | ⟨_, _, ran⟩ := signature.add_run parameter <;> rw [ran]
  · refine ⟨wellFormed.inPlace.placed admits.named admits.fresh, ?_, ?_⟩
    · intro found member
      obtain member | rfl := Parameter.mem_placed.mp member
      · exact wellFormed.single found member
      · exact admits.single
    · intro found member
      obtain member | rfl := Parameter.mem_placed.mp member
      · exact wellFormed.valued found member
      · exact admits.valued
  · exact wellFormed

theorem after_well_formed {start : EventSignature} (wellFormed : start.WellFormed)
    (parameters : List Parameter) :
    (Drafting.after start (parameters.map add)).WellFormed := by
  refine Drafting.after_invariant wellFormed fun call member signature kept => ?_
  obtain ⟨parameter, _, rfl⟩ := List.mem_map.mp member
  exact add_well_formed kept parameter

end EventSignature

/-! ### Functions -/

namespace FunctionSignature

theorem agrees_equivalence :
    Equivalence fun first second : FunctionSignature => first.agrees second = true where
  refl signature := agrees_iff.mpr ⟨rfl, rfl⟩
  symm same := (agrees_comm _ _).trans same
  trans front back := by
    obtain ⟨names, types⟩ := agrees_iff.mp front
    obtain ⟨others, behind⟩ := agrees_iff.mp back
    exact agrees_iff.mpr ⟨names.trans others, types.trans behind⟩

/-- Functions give the same to a hasher when they agree, and only then: the pieces come in pairs, so
how many parameters there are need not be told. -/
theorem hashed_eq_iff {first second : FunctionSignature} :
    first.hashed = second.hashed ↔ first.agrees second = true := by
  have pairs (parameters others : List Parameter) :
      (parameters.flatMap fun parameter => [Hashed.type parameter.type, .flag parameter.variadic]) =
          others.flatMap (fun parameter => [Hashed.type parameter.type, .flag parameter.variadic]) ↔
        parameters.map (fun parameter => (parameter.type, parameter.variadic)) =
          others.map fun parameter => (parameter.type, parameter.variadic) := by
    induction parameters generalizing others with
    | nil => cases others <;> simp
    | cons parameter parameters induction =>
        cases others with
        | nil => simp
        | cons other others => simp [induction, and_assoc]
  rw [agrees_iff, hashed, hashed, List.cons.injEq, Hashed.name.injEq, pairs]

/-- What holds of a function however it is built. -/
structure WellFormed (signature : FunctionSignature) : Prop where
  inPlace : InPlace signature.parameters
  last : ∀ (place : Nat) (parameter : Parameter),
    signature.parameters[place]? = some parameter → parameter.variadic = true →
      place + 1 = signature.parameters.length
  valued : ∀ parameter ∈ signature.parameters, parameter.type = .void → parameter.variadic = true

theorem of_name_well_formed (returns : ValueType) {name : String}
    (named : isIdentifier name = true) :
    ∃ fresh, ofName returns name = .ok fresh ∧ fresh.WellFormed := by
  refine ⟨⟨name, returns, []⟩, ?_, in_place_nil, by simp, by simp⟩
  rw [ofName, identifier_checked named]
  rfl

theorem add_refused {signature : FunctionSignature} {parameter : Parameter} {failure : Failure}
    (refused : ((add parameter).run signature).1 = .error failure) :
    ((add parameter).run signature).2 = signature := by
  obtain ⟨_, ran⟩ | ⟨_, _, ran⟩ := signature.add_run parameter <;> rw [ran] at refused ⊢
  cases refused

theorem WellFormed.plain {signature : FunctionSignature} (wellFormed : signature.WellFormed)
    (steady : signature.isVariadic = false) :
    ∀ parameter ∈ signature.parameters, parameter.variadic = false := by
  intro parameter member
  by_contra variadic
  obtain ⟨place, inside, here⟩ := List.mem_iff_getElem.mp member
  have found := List.getElem?_eq_some_iff.mpr ⟨inside, here⟩
  have last := wellFormed.last place parameter found (by simpa using variadic)
  have final : signature.parameters.getLast? = some parameter := by
    rw [List.getLast?_eq_getElem?, ← last, Nat.add_sub_cancel]
    exact found
  rw [isVariadic, final] at steady
  exact variadic steady

theorem add_well_formed {signature : FunctionSignature} (wellFormed : signature.WellFormed)
    (parameter : Parameter) : ((add parameter).run signature).2.WellFormed := by
  obtain ⟨admits, ran⟩ | ⟨_, _, ran⟩ := signature.add_run parameter <;> rw [ran]
  · have plain := wellFormed.plain admits.steady
    refine ⟨wellFormed.inPlace.placed admits.named admits.fresh, ?_, ?_⟩
    · intro place found here variadic
      obtain here | ⟨rfl, rfl⟩ := Parameter.placed_getElem? here
      · have single := plain found (List.mem_of_getElem? here)
        rw [single] at variadic
        cases variadic
      · simp [Parameter.placed]
    · intro found member nothing
      obtain member | rfl := Parameter.mem_placed.mp member
      · exact wellFormed.valued found member nothing
      · exact admits.valued nothing
  · exact wellFormed

theorem after_well_formed {start : FunctionSignature} (wellFormed : start.WellFormed)
    (parameters : List Parameter) :
    (Drafting.after start (parameters.map add)).WellFormed := by
  refine Drafting.after_invariant wellFormed fun call member signature kept => ?_
  obtain ⟨parameter, _, rfl⟩ := List.mem_map.mp member
  exact add_well_formed kept parameter

section

variable {signature : FunctionSignature} {front rest : List Parameter}
  {parameter : Parameter} {exact : Bool}

theorem concrete_of_plain (steady : signature.isVariadic = false) :
    signature.concreteCount = signature.parameters.length := by
  simp [concreteCount, steady]

/-- A parameter in front of which all are plain is the last if it is variadic, and else there are
more arguments to come. -/
theorem concrete_at (wellFormed : signature.WellFormed)
    (parts : signature.parameters = front ++ parameter :: rest) :
    (parameter.variadic = true →
      rest = [] ∧ signature.isVariadic = true ∧ signature.concreteCount = front.length) ∧
    (parameter.variadic = false → front.length < signature.concreteCount) := by
  have here : signature.parameters[front.length]? = some parameter := by simp [parts]
  have count : signature.parameters.length = front.length + rest.length + 1 := by
    rw [parts, List.length_append, List.length_cons, Nat.add_assoc]
  constructor
  · intro variadic
    have last := wellFormed.last front.length parameter here variadic
    obtain rfl : rest = [] := List.eq_nil_of_length_eq_zero (by omega)
    have tail : signature.isVariadic = true := by simp [isVariadic, parts, variadic]
    exact ⟨rfl, tail, by simp [concreteCount, tail, parts]⟩
  · intro single
    unfold concreteCount
    split
    · rename_i tail
      cases rest with
      | nil => simp [isVariadic, parts, single] at tail
      | cons other others =>
          rw [count, List.length_cons]
          omega
    · omega

theorem fits_at_plain (here : signature.parameters[front.length]? = some parameter)
    (inside : front.length < signature.concreteCount) (argument : ValueType) :
    signature.fitsAt? exact argument front.length =
      some (argumentFits exact argument parameter.type) := by
  simp [fitsAt?, inside, here]

theorem all_fit_cons {argument : ValueType} {place : Nat} {fits : Bool}
    (first : signature.fitsAt? exact argument place = some fits) (arguments : List ValueType) :
    signature.allFit? exact (argument :: arguments) place =
      if fits then signature.allFit? exact arguments (place + 1) else some false := by
  rw [allFit?, List.zipIdx_cons, List.allM]
  dsimp only
  rw [first]
  cases fits <;> rfl

theorem all_fit_variadic (here : signature.parameters[signature.concreteCount]? = some parameter)
    {place : Nat} (behind : signature.concreteCount ≤ place) (arguments : List ValueType) :
    signature.allFit? exact arguments place =
      some (arguments.all fun argument => argument != .void && (parameter.type == .void ||
        argumentFits exact argument parameter.type)) := by
  induction arguments generalizing place with
  | nil => rfl
  | cons argument arguments induction =>
      have first : signature.fitsAt? exact argument place =
          some (argument != .void && (parameter.type == .void ||
            argumentFits exact argument parameter.type)) := by
        simp [fitsAt?, Nat.not_lt.mpr behind, here]
      rw [all_fit_cons first, induction (Nat.le_succ_of_le behind), List.all_cons]
      split <;> simp_all

/-- Arguments looked up by their places are taken as they are from left to right. The induction is
on the parameters that are left, those in front being plain. -/
theorem fits_behind (wellFormed : signature.WellFormed) (parts : signature.parameters = front ++ rest)
    (plain : ∀ parameter ∈ front, parameter.variadic = false) (arguments : List ValueType)
    (exact : Bool) :
    (if signature.arityFits (front.length + arguments.length) then
      signature.allFit? exact arguments front.length else some false) =
      some (argumentsFit exact rest arguments) := by
  induction rest generalizing front arguments with
  | nil =>
      have all : signature.parameters = front := by simpa using parts
      have steady : signature.isVariadic = false := by
        unfold isVariadic
        split
        · rename_i parameter last
          exact plain parameter (all ▸ List.mem_of_getLast? last)
        · rfl
      have count : signature.concreteCount = front.length := by rw [concrete_of_plain steady, all]
      cases arguments with
      | nil => simp [arityFits, steady, count, allFit?, argumentsFit]
      | cons argument arguments =>
          simp [arityFits, steady, count, argumentsFit]
  | cons parameter rest induction =>
      have here : signature.parameters[front.length]? = some parameter := by simp [parts]
      obtain ⟨variadic, single⟩ := concrete_at wellFormed parts
      by_cases tail : parameter.variadic = true
      · obtain ⟨rfl, open_, count⟩ := variadic tail
        have arity : signature.arityFits (front.length + arguments.length) = true := by
          simp [arityFits, open_, count]
        rw [if_pos arity, all_fit_variadic (count ▸ here) (Nat.le_of_eq count)]
        simp [argumentsFit, tail]
      · rw [Bool.not_eq_true] at tail
        have inside := single tail
        cases arguments with
        | nil =>
            have arity : signature.arityFits front.length = false := by
              unfold arityFits
              split <;> simp <;> omega
            simp [arity, argumentsFit, tail]
        | cons argument arguments =>
            have next : signature.parameters = (front ++ [parameter]) ++ rest := by simp [parts]
            have others := induction next (by simpa [or_imp, forall_and] using ⟨plain, tail⟩)
              arguments
            have place : (front ++ [parameter]).length = front.length + 1 := by simp
            have total : front.length + 1 + arguments.length =
                front.length + (argument :: arguments).length := by
              rw [List.length_cons]
              omega
            rw [place, total] at others
            rw [all_fit_cons (fits_at_plain here inside argument), argumentsFit, tail]
            cases argumentFits exact argument parameter.type with
            | true => simpa using others
            | false => simp

theorem accepts_by_place (wellFormed : signature.WellFormed) (arguments : List ValueType)
    (exact : Bool) :
    signature.accepts? arguments exact = some (signature.accepts arguments exact) := by
  have parts : signature.parameters = [] ++ signature.parameters := rfl
  have all := fits_behind wellFormed parts (by simp) arguments exact
  simpa [accepts?, accepts] using all

end

end FunctionSignature

/-- Signatures are well-formed however they are built. On a fresh signature of a name that is an
identifier any parameters may be added in any order, and whichever of these calls fail: the
parameters have names of their own that are identifiers, the index of each is its place, only the
last of a function may be variadic and only a variadic one void, and none of an event is either. A
call that fails leaves what it is made on as it was. Then arguments are never compared with a
parameter that is not there, and signatures that agree, which is an equivalence, give the same to a
hasher. -/
theorem signatures_well_formed :
    (∀ returns name, isIdentifier name = true →
      ∃ fresh, FunctionSignature.ofName returns name = .ok fresh ∧
        ∀ parameters : List Parameter,
          let signature := Drafting.after fresh (parameters.map FunctionSignature.add)
          signature.WellFormed ∧ ∀ arguments exact,
            signature.accepts? arguments exact = some (signature.accepts arguments exact)) ∧
    (∀ name, isIdentifier name = true →
      ∃ fresh, EventSignature.ofName name = .ok fresh ∧
        ∀ parameters : List Parameter,
          (Drafting.after fresh (parameters.map EventSignature.add)).WellFormed) ∧
    (∀ (signature : FunctionSignature) parameter failure,
      ((FunctionSignature.add parameter).run signature).1 = .error failure →
        ((FunctionSignature.add parameter).run signature).2 = signature) ∧
    (∀ (signature : EventSignature) parameter failure,
      ((EventSignature.add parameter).run signature).1 = .error failure →
        ((EventSignature.add parameter).run signature).2 = signature) ∧
    (Equivalence fun first second : FunctionSignature => first.agrees second = true) ∧
    (Equivalence fun first second : EventSignature => first.agrees second = true) ∧
    (∀ first second : FunctionSignature, first.agrees second = true →
      first.hashed = second.hashed) ∧
    ∀ first second : EventSignature, first.agrees second = true → first.hashed = second.hashed := by
  refine ⟨?functions, ?events, ?function, ?event, FunctionSignature.agrees_equivalence,
    EventSignature.agrees_equivalence, ?_, ?_⟩
  case functions =>
    intro returns name named
    obtain ⟨fresh, made, wellFormed⟩ := FunctionSignature.of_name_well_formed returns named
    refine ⟨fresh, made, fun parameters => ?_⟩
    have kept := FunctionSignature.after_well_formed wellFormed parameters
    exact ⟨kept, fun arguments exact => FunctionSignature.accepts_by_place kept arguments exact⟩
  case events =>
    intro name named
    obtain ⟨fresh, made, wellFormed⟩ := EventSignature.of_name_well_formed named
    exact ⟨fresh, made, fun parameters => EventSignature.after_well_formed wellFormed parameters⟩
  case function => exact fun _ _ _ refused => FunctionSignature.add_refused refused
  case event => exact fun _ _ _ refused => EventSignature.add_refused refused
  · exact fun first second same => FunctionSignature.hashed_eq_iff.mpr same
  · exact fun first second same => EventSignature.hashed_eq_iff.mpr same

/-- A parameter whose name is taken, a void one, one of no proper name and one behind a variadic one
are left out, and of an event a variadic one. -/
theorem refused_parameters_left_out :
    let first : Parameter := ⟨"first", .integer, false, 7⟩
    let rest : Parameter := ⟨"rest", .void, true, 7⟩
    let wrong : Parameter := ⟨"2nd", .key, false, 7⟩
    let calls := [first, ⟨"first", .float, false, 7⟩, ⟨"none", .void, false, 7⟩, wrong, rest,
      ⟨"behind", .list, false, 7⟩]
    let function := Drafting.after ⟨"pick", .integer, []⟩ (calls.map FunctionSignature.add)
    let event := Drafting.after ⟨"picked", []⟩ (calls.map EventSignature.add)
    function.parameters = [{ first with index := 0 }, { rest with index := 1 }] ∧
      function.WellFormed ∧ function.accepts? [.integer, .string, .key] true = some true ∧
      event.parameters = [{ first with index := 0 }, ⟨"behind", .list, false, 1⟩] ∧
      event.WellFormed ∧
      ((FunctionSignature.add wrong).run function).2 = function ∧
      ((EventSignature.add rest).run event).2 = event ∧
      function.hashed = { function with returns := .list }.hashed ∧
      event.hashed = (⟨"picked", [⟨"one", .integer, false, 0⟩, ⟨"two", .list, false, 1⟩]⟩ :
        EventSignature).hashed := by
  intro first rest wrong calls function event
  obtain ⟨functions, events, refusedFunction, refusedEvent, -, -, sameFunction, sameEvent⟩ :=
    signatures_well_formed
  obtain ⟨fresh, made, built⟩ := functions .integer "pick" (by decide)
  obtain rfl : (⟨"pick", .integer, []⟩ : FunctionSignature) = fresh :=
    Except.ok.inj ((by decide : _ = FunctionSignature.ofName .integer "pick").trans made)
  obtain ⟨blank, named, grown⟩ := events "picked" (by decide)
  obtain rfl : (⟨"picked", []⟩ : EventSignature) = blank :=
    Except.ok.inj ((by decide : _ = EventSignature.ofName "picked").trans named)
  refine ⟨by decide, (built calls).1, ?_, by decide, grown calls, ?_, ?_, ?_, ?_⟩
  · rw [(built calls).2]
    decide
  · exact refusedFunction function wrong (.invalidSymbolName "2nd") (by decide)
  · exact refusedEvent event rest (.invalidSignature (.variadicInEvent "picked" "rest")) (by decide)
  · exact sameFunction _ _ (by decide)
  · exact sameEvent _ _ (by decide)

end Lsl
