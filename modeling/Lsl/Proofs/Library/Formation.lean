import Lsl.Library.Bundled
import Lsl.Library.Descriptor
import Lsl.Proofs.Signature.Parameters

/-!
Signatures are put together parameter by parameter, and a library grows entry by entry. So every
library that is loaded holds only signatures that can be put together: no constant of it is void,
and no function of it has a variadic parameter in front of another.
-/

set_option autoImplicit false

namespace Lsl

theorem ConstantSignature.of_value_ok {type : ValueType} {name value : String}
    {signature : ConstantSignature} (built : ofValue type name value = .ok signature) :
    type ≠ .void ∧ signature = ⟨name, type, value⟩ := by
  unfold ofValue at built
  obtain ⟨_, _, built⟩ := bind_eq_ok.mp built
  simp only [throw, throwThe, MonadExceptOf.throw, pure, Except.pure] at built
  split at built
  · cases built
  · rename_i typed
    cases built
    exact ⟨typed, rfl⟩

namespace Library

/-- Every entry of a library has a signature that can be put together. -/
structure WellFormed (library : Library) : Prop where
  functions : ∀ function ∈ library.functions,
    FunctionSignature.ofParameters function.signature.returns function.signature.name
      function.signature.parameters = .ok function.signature
  constants : ∀ constant ∈ library.constants,
    ConstantSignature.ofValue constant.signature.type constant.signature.name
      constant.signature.value = .ok constant.signature

theorem WellFormed.add_function {library : Library} (wellFormed : library.WellFormed)
    {function : LibraryFunction} {result : Library × Bool}
    (built : FunctionSignature.ofParameters function.signature.returns function.signature.name
      function.signature.parameters = .ok function.signature)
    (added : library.addFunction function = .ok result) : result.1.WellFormed := by
  unfold Library.addFunction at added
  split at added
  · cases added
    exact wellFormed
  · split at added
    · cases added
    · cases added
      refine ⟨?_, wellFormed.constants⟩
      intro found member
      rcases List.mem_append.mp member with member | member
      · exact wellFormed.functions found member
      · obtain rfl := List.mem_singleton.mp member
        exact built

theorem WellFormed.add_constant {library : Library} (wellFormed : library.WellFormed)
    {constant : LibraryConstant} {result : Library × Bool}
    (built : ConstantSignature.ofValue constant.signature.type constant.signature.name
      constant.signature.value = .ok constant.signature)
    (added : library.addConstant constant = .ok result) : result.1.WellFormed := by
  unfold Library.addConstant at added
  split at added
  · cases added
    exact wellFormed
  · split at added
    · cases added
    · cases added
      refine ⟨wellFormed.functions, ?_⟩
      intro found member
      rcases List.mem_append.mp member with member | member
      · exact wellFormed.constants found member
      · obtain rfl := List.mem_singleton.mp member
        exact built

theorem WellFormed.add_event {library : Library} (wellFormed : library.WellFormed)
    {event : LibraryEvent} {result : Library × Bool} (added : library.addEvent event = .ok result) :
    result.1.WellFormed := by
  unfold Library.addEvent at added
  split at added
  · cases added
    exact wellFormed
  · split at added
    · cases added
    · cases added
      exact ⟨wellFormed.functions, wellFormed.constants⟩

/-- A library that grew by additions alone, one after the other, from no entries. What is added has a
signature that was put together. -/
inductive Grown : Library → Prop
  | empty {subsets : List String} {library : Library} (made : ofSubsets subsets = .ok library) :
      Grown library
  | function {library extended : Library} {function : LibraryFunction} {kept : Bool}
      (grown : Grown library)
      (built : FunctionSignature.ofParameters function.signature.returns function.signature.name
        function.signature.parameters = .ok function.signature)
      (added : library.addFunction function = .ok (extended, kept)) : Grown extended
  | event {library extended : Library} {event : LibraryEvent} {kept : Bool} (grown : Grown library)
      (added : library.addEvent event = .ok (extended, kept)) : Grown extended
  | constant {library extended : Library} {constant : LibraryConstant} {kept : Bool}
      (grown : Grown library)
      (built : ConstantSignature.ofValue constant.signature.type constant.signature.name
        constant.signature.value = .ok constant.signature)
      (added : library.addConstant constant = .ok (extended, kept)) : Grown extended

theorem of_subsets_well_formed {subsets : List String} {library : Library}
    (empty : ofSubsets subsets = .ok library) : library.WellFormed := by
  obtain ⟨_, _, rest⟩ := bind_eq_ok.mp empty
  cases rest
  exact ⟨by simp, by simp⟩

theorem Grown.well_formed {library : Library} (grown : library.Grown) : library.WellFormed := by
  induction grown with
  | empty made => exact of_subsets_well_formed made
  | function _ built added induction => exact induction.add_function built added
  | event _ added induction => exact induction.add_event added
  | constant _ built added induction => exact induction.add_constant built added

/-- An entry is put together before it is added. -/
theorem Grown.add_entry {library extended : Library} (grown : library.Grown) {entry : Entry}
    (added : library.addEntry entry = .ok extended) : extended.Grown := by
  unfold Library.addEntry at added
  split at added
  · obtain ⟨signature, built, added⟩ := bind_eq_ok.mp added
    obtain ⟨result, larger, rest⟩ := bind_eq_ok.mp added
    cases rest
    exact grown.function (FunctionSignature.of_own_parameters built) larger
  · obtain ⟨signature, built, added⟩ := bind_eq_ok.mp added
    obtain ⟨result, larger, rest⟩ := bind_eq_ok.mp added
    cases rest
    exact grown.event larger
  · obtain ⟨signature, built, added⟩ := bind_eq_ok.mp added
    obtain ⟨result, larger, rest⟩ := bind_eq_ok.mp added
    cases rest
    refine grown.constant ?_ larger
    obtain ⟨_, same⟩ := ConstantSignature.of_value_ok built
    simpa [same] using built

end Library

namespace Descriptor

theorem within_ok {α : Type} {label : String} {result : Except Failure α} {value : α}
    (fine : within label result = .ok value) : result = .ok value := by
  cases result <;> simp_all [within]

namespace Progress

/-- What an event does to the library: nothing, or it adds an entry. -/
def Extends (before after : Progress) : Prop :=
  after.library = before.library ∨
    ∃ entry, before.library.addEntry entry = .ok after.library

theorem finish_extends {progress after : Progress} {entry : Entry}
    (finished : progress.finish entry = .ok after) : progress.Extends after := by
  unfold finish at finished
  obtain ⟨library, added, rest⟩ := bind_eq_ok.mp finished
  cases rest
  exact .inr ⟨entry, within_ok added⟩

theorem document_library (progress : Progress) (extend : String → String) :
    (progress.document extend).library = progress.library := by
  unfold document
  split <;> rfl

theorem read_detail_extends {progress after : Progress} {entry : Entry} {tag : Markup.Tag}
    {closed : Bool} (done : progress.readDetail entry tag closed = .ok after) :
    progress.Extends after := by
  unfold readDetail at done
  split at done
  · obtain ⟨_, _, rest⟩ := bind_eq_ok.mp done
    cases rest
    exact .inl rfl
  · obtain ⟨_, _, rest⟩ := bind_eq_ok.mp done
    cases rest
    exact .inl rfl
  · cases done
    exact .inl rfl
  · cases done

theorem read_tag_extends {progress after : Progress} {tag : Markup.Tag} {closed : Bool}
    (done : progress.readTag tag closed = .ok after) : progress.Extends after := by
  unfold readTag at done
  simp only [throw, throwThe, MonadExceptOf.throw, pure, Except.pure] at done
  split at done
  · split at done
    · cases done
    · cases done
      exact .inl rfl
  · split at done
    · cases done
    · obtain ⟨entry, _, rest⟩ := bind_eq_ok.mp done
      split at rest
      · exact finish_extends rest
      · cases rest
        exact .inl rfl
    · exact read_detail_extends done
    · cases done

theorem read_extends {reader : Markup.Reader} {progress after : Progress} {event : Markup.Event}
    (done : progress.read reader event = .ok after) : progress.Extends after := by
  cases event with
  | opening tag | selfClosed tag => exact read_tag_extends done
  | closing name =>
      simp only [read, readClosing] at done
      split at done
      · cases done
        exact .inl rfl
      · split at done
        · exact finish_extends done
        · cases done
          exact .inl rfl
  | text raw =>
      cases done
      exact .inl (document_library progress _)
  | verbatim raw =>
      cases done
      exact .inl (document_library progress _)
  | skipped =>
      cases done
      exact .inl rfl

/-- Reading a descriptor, however far, does nothing to a library but add to it. -/
theorem read_all_grown (reader : Markup.Reader) (document : String) (reading : Markup.Reading)
    {progress : Progress} (grown : progress.library.Grown) (events : List Markup.Located) :
    (progress.readAll reader document reading events).1.library.Grown := by
  induction events generalizing progress with
  | nil =>
      unfold readAll
      split <;> exact grown
  | cons located events induction =>
      unfold readAll
      split
      · rename_i next done
        refine induction ?_
        rcases read_extends done with same | ⟨entry, added⟩
        · rwa [same]
        · exact grown.add_entry added
      · exact grown

end Progress

end Descriptor

namespace Library

theorem of_descriptor_grown {reader : Markup.Reader} {document : String} {subsets : List String}
    {library : Library} (loaded : ofDescriptor reader document subsets = .ok library) :
    library.Grown := by
  unfold ofDescriptor at loaded
  obtain ⟨empty, made, rest⟩ := bind_eq_ok.mp loaded
  dsimp only at rest
  split at rest
  · cases rest
  · cases rest
    exact Descriptor.Progress.read_all_grown reader document _ (.empty made) _

/-- Every library that a descriptor gives is well-formed, whichever reader reads it. -/
theorem of_descriptor_well_formed {reader : Markup.Reader} {document : String}
    {subsets : List String} {library : Library}
    (loaded : ofDescriptor reader document subsets = .ok library) : library.WellFormed :=
  (of_descriptor_grown loaded).well_formed

theorem Grown.add_entries {library extended : Library} (grown : library.Grown)
    {entries : List Entry} (added : entries.foldlM Library.addEntry library = .ok extended) :
    extended.Grown := by
  induction entries generalizing library with
  | nil =>
      cases added
      exact grown
  | cons entry entries induction =>
      rw [List.foldlM_cons] at added
      obtain ⟨larger, first, others⟩ := bind_eq_ok.mp added
      exact induction (grown.add_entry first) others

theorem bundled_grown {subsets : List String} {library : Library}
    (loaded : bundled subsets = .ok library) : library.Grown := by
  unfold bundled at loaded
  obtain ⟨empty, made, rest⟩ := bind_eq_ok.mp loaded
  exact (Grown.empty made).add_entries rest

theorem bundled_well_formed {subsets : List String} {library : Library}
    (loaded : bundled subsets = .ok library) : library.WellFormed :=
  (bundled_grown loaded).well_formed

end Library

end Lsl
