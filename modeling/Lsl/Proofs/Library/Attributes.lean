import Lsl.Proofs.Library.Subsets
import Lsl.Proofs.Markup.Attributes

/-!
How descriptors are read, attribute by attribute. An element is read without the attributes that are
malformed or repeat another, and a document loads with them exactly if it loads without. Values go
into the library as they are written; what text in documentation stands for is looked up, what values
stand for is not.
-/

set_option autoImplicit false

namespace Lsl

namespace Library

/-- The entry is in the library, if one of its subsets is active. -/
def Keeps (library : Library) (entry : Entry) : Prop :=
  entry.metadata.sharesSubset library.active = true →
    match entry.kind with
    | .function =>
      ⟨⟨entry.name, entry.type, Parameter.numbered entry.parameters⟩, entry.metadata⟩ ∈
        library.functions
    | .event =>
      ⟨⟨entry.name, Parameter.numbered entry.parameters⟩, entry.metadata⟩ ∈ library.events
    | .constant => ⟨⟨entry.name, entry.type, entry.value⟩, entry.metadata⟩ ∈ library.constants

/-- One library has the same active subsets as another and everything that is in it. -/
structure Includes (larger library : Library) : Prop where
  active : larger.active = library.active
  functions : library.functions ⊆ larger.functions
  events : library.events ⊆ larger.events
  constants : library.constants ⊆ larger.constants

theorem Includes.keeps {larger library : Library} (includes : larger.Includes library)
    {entry : Entry} (keeps : library.Keeps entry) : larger.Keeps entry := by
  intro shares
  have member := keeps (includes.active ▸ shares)
  revert member
  cases entry.kind with
  | function => exact fun member => includes.functions member
  | event => exact fun member => includes.events member
  | constant => exact fun member => includes.constants member

theorem Includes.refl (library : Library) : library.Includes library :=
  ⟨rfl, fun _ => id, fun _ => id, fun _ => id⟩

theorem add_function_includes {library larger : Library} {function : LibraryFunction} {kept : Bool}
    (added : library.addFunction function = .ok (larger, kept)) :
    larger.Includes library ∧
      (function.metadata.sharesSubset larger.active = true → function ∈ larger.functions) := by
  unfold addFunction at added
  split at added
  · rename_i apart
    cases added
    exact ⟨.refl _, fun shares => absurd shares (by simpa using apart)⟩
  · split at added <;> cases added
    exact ⟨⟨rfl, List.subset_append_left _ _, fun _ => id, fun _ => id⟩, fun _ => by simp⟩

theorem add_event_includes {library larger : Library} {event : LibraryEvent} {kept : Bool}
    (added : library.addEvent event = .ok (larger, kept)) :
    larger.Includes library ∧
      (event.metadata.sharesSubset larger.active = true → event ∈ larger.events) := by
  unfold addEvent at added
  split at added
  · rename_i apart
    cases added
    exact ⟨.refl _, fun shares => absurd shares (by simpa using apart)⟩
  · split at added <;> cases added
    exact ⟨⟨rfl, fun _ => id, List.subset_append_left _ _, fun _ => id⟩, fun _ => by simp⟩

theorem add_constant_includes {library larger : Library} {constant : LibraryConstant} {kept : Bool}
    (added : library.addConstant constant = .ok (larger, kept)) :
    larger.Includes library ∧
      (constant.metadata.sharesSubset larger.active = true → constant ∈ larger.constants) := by
  unfold addConstant at added
  split at added
  · rename_i apart
    cases added
    exact ⟨.refl _, fun shares => absurd shares (by simpa using apart)⟩
  · split at added <;> cases added
    exact ⟨⟨rfl, fun _ => id, fun _ => id, List.subset_append_left _ _⟩, fun _ => by simp⟩

theorem add_entry_keeps {library larger : Library} {entry : Entry}
    (added : library.addEntry entry = .ok larger) :
    larger.Includes library ∧ larger.Keeps entry := by
  unfold addEntry at added
  unfold Keeps
  split at added
  · rename_i kind
    obtain ⟨signature, built, added⟩ := bind_eq_ok.mp added
    obtain ⟨⟨_, kept⟩, grown, rest⟩ := bind_eq_ok.mp added
    cases rest
    obtain ⟨-, rfl⟩ := FunctionSignature.of_parameters_ok built
    simpa only [kind] using add_function_includes grown
  · rename_i kind
    obtain ⟨signature, built, added⟩ := bind_eq_ok.mp added
    obtain ⟨⟨_, kept⟩, grown, rest⟩ := bind_eq_ok.mp added
    cases rest
    obtain rfl := EventSignature.of_parameters_ok built
    simpa only [kind] using add_event_includes grown
  · rename_i kind
    obtain ⟨signature, built, added⟩ := bind_eq_ok.mp added
    obtain ⟨⟨_, kept⟩, grown, rest⟩ := bind_eq_ok.mp added
    cases rest
    obtain ⟨-, rfl⟩ := ConstantSignature.of_value_ok built
    simpa only [kind] using add_constant_includes grown

end Library

theorem lookup_insert_property (name value wanted : String) (properties : List (String × String)) :
    (insertProperty name value properties).lookup wanted =
      if wanted = name then some value else properties.lookup wanted := by
  induction properties with
  | nil =>
      by_cases found : wanted = name
      · simp [insertProperty, found]
      · simp [insertProperty, List.lookup_cons, beq_eq_false_iff_ne.mpr found, found]
  | cons property properties induction =>
      obtain ⟨other, old⟩ := property
      unfold insertProperty
      by_cases found : wanted = name
      · subst found
        split
        · simp
        · rename_i apart
          split
          · simp
          · simp [List.lookup_cons, beq_eq_false_iff_ne.mpr apart, induction]
      · have unlike : (wanted == name) = false := beq_eq_false_iff_ne.mpr found
        rw [if_neg found]
        split
        · rename_i same
          simp [List.lookup_cons, ← same, unlike]
        · split
          · simp [List.lookup_cons, unlike]
          · simp [List.lookup_cons, induction, found]

namespace Descriptor

theorem begin_entry_ok {kind : EntryKind} {tag : Markup.Tag} {entry : Entry}
    (begun : beginEntry kind tag = .ok entry) :
    entry.kind = kind ∧ valueOf? tag "Name" = some entry.name ∧
      (kind = .constant → valueOf? tag "Value" = some entry.value) := by
  unfold beginEntry at begun
  simp only [throw, throwThe, MonadExceptOf.throw, pure, Except.pure] at begun
  split at begun
  · cases begun
  · split at begun
    · rename_i name named
      obtain ⟨_, _, begun⟩ := bind_eq_ok.mp begun
      split at begun
      · obtain ⟨metadata, _, begun⟩ := bind_eq_ok.mp begun
        obtain ⟨type, _, begun⟩ := bind_eq_ok.mp begun
        obtain ⟨value, valued, begun⟩ := bind_eq_ok.mp begun
        cases begun
        refine ⟨rfl, named, ?_⟩
        rintro rfl
        unfold entryValue at valued
        split at valued
        · cases valued
        · rename_i given absent
          cases found : valueOf? tag "Value" with
          | none => exact absurd found (absent rfl)
          | some text =>
              rw [found] at valued
              cases valued
              rfl
      · cases begun
    · cases begun

theorem add_parameter_ok {entry extended : Entry} {tag : Markup.Tag}
    (added : addParameter entry tag = .ok extended) :
    ∃ parameter, extended = { entry with parameters := entry.parameters ++ [parameter] } := by
  unfold addParameter at added
  simp only [throw, throwThe, MonadExceptOf.throw, pure, Except.pure] at added
  split at added
  · cases added
  · split at added
    · cases added
    · split at added
      · split at added
        · obtain ⟨_, _, added⟩ := bind_eq_ok.mp added
          obtain ⟨_, _, added⟩ := bind_eq_ok.mp added
          cases added
          exact ⟨_, rfl⟩
        · cases added
      · cases added

theorem add_property_ok {entry extended : Entry} {tag : Markup.Tag}
    (added : addProperty entry tag = .ok extended) :
    ∃ name value, valueOf? tag "Name" = some name ∧ valueOf? tag "Value" = some value ∧
      entry.metadata.property? name = none ∧
      extended = { entry with metadata := entry.metadata.setProperty name value } := by
  unfold addProperty at added
  simp only [throw, throwThe, MonadExceptOf.throw, pure, Except.pure] at added
  split at added
  · cases added
  · split at added
    · rename_i name value named valued
      split at added
      · cases added
      · rename_i new
        cases added
        exact ⟨name, value, named, valued, by simpa using new, rfl⟩
    · cases added

/-- What stays true of an entry while parameters, properties and documentation are added to it. -/
structure Lasting (holds : Entry → Prop) : Prop where
  parameter : ∀ {entry extended : Entry} {tag : Markup.Tag}, holds entry →
    addParameter entry tag = .ok extended → holds extended
  property : ∀ {entry extended : Entry} {tag : Markup.Tag}, holds entry →
    addProperty entry tag = .ok extended → holds extended
  documentation : ∀ {entry : Entry} (documentation : String), holds entry →
    holds { entry with metadata := { entry.metadata with documentation } }

theorem lasting_constant (name value : String) :
    Lasting fun entry => entry.kind = .constant ∧ entry.name = name ∧ entry.value = value where
  parameter held added := by
    obtain ⟨_, rfl⟩ := add_parameter_ok added
    exact held
  property held added := by
    obtain ⟨_, _, _, _, _, rfl⟩ := add_property_ok added
    exact held
  documentation _ held := held

theorem lasting_property (name value : String) :
    Lasting fun entry => entry.metadata.property? name = some value where
  parameter held added := by
    obtain ⟨_, rfl⟩ := add_parameter_ok added
    exact held
  property held added := by
    obtain ⟨other, _, _, _, new, rfl⟩ := add_property_ok added
    have apart : name ≠ other := by
      rintro rfl
      rw [held] at new
      cases new
    simpa [Metadata.property?, Metadata.setProperty, lookup_insert_property, apart] using held
  documentation _ held := held

namespace Progress

/-- Something holds of the open entry, or of an entry that the library keeps. -/
def Holds (progress : Progress) (holds : Entry → Prop) : Prop :=
  (∃ entry ∈ progress.entry, holds entry) ∨ ∃ entry, holds entry ∧ progress.library.Keeps entry

variable {holds : Entry → Prop} {progress after : Progress}

theorem finish_holds {entry : Entry} (finished : progress.finish entry = .ok after)
    (held : holds entry ∨ ∃ entry, holds entry ∧ progress.library.Keeps entry) :
    after.Holds holds := by
  obtain ⟨library, added, rest⟩ := bind_eq_ok.mp finished
  cases rest
  obtain ⟨includes, keeps⟩ := Library.add_entry_keeps (within_ok added)
  rcases held with held | ⟨other, held, kept⟩
  · exact .inr ⟨entry, held, keeps⟩
  · exact .inr ⟨other, held, includes.keeps kept⟩

variable (lasting : Lasting holds)

include lasting

theorem document_holds (extend : String → String) (held : progress.Holds holds) :
    (progress.document extend).Holds holds := by
  unfold document
  split
  · rename_i entry _ open_
    rcases held with ⟨found, isOpen, held⟩ | kept
    · rw [open_] at isOpen
      obtain rfl := Option.mem_some_iff.mp isOpen
      exact .inl ⟨_, rfl, lasting.documentation _ held⟩
    · exact .inr kept
  · exact held

theorem read_detail_holds {entry : Entry} {tag : Markup.Tag} {closed : Bool}
    (open_ : progress.entry = some entry) (held : progress.Holds holds)
    (done : progress.readDetail entry tag closed = .ok after) : after.Holds holds := by
  have opened : holds entry ∨ ∃ entry, holds entry ∧ progress.library.Keeps entry := by
    rcases held with ⟨found, isOpen, held⟩ | kept
    · rw [open_] at isOpen
      obtain rfl := Option.mem_some_iff.mp isOpen
      exact .inl held
    · exact .inr kept
  unfold readDetail at done
  split at done
  · obtain ⟨extended, added, rest⟩ := bind_eq_ok.mp done
    cases rest
    exact opened.imp (fun held => ⟨_, rfl, lasting.parameter held added⟩) id
  · obtain ⟨extended, added, rest⟩ := bind_eq_ok.mp done
    cases rest
    exact opened.imp (fun held => ⟨_, rfl, lasting.property held added⟩) id
  · cases done
    exact held
  · cases done

theorem read_tag_holds {tag : Markup.Tag} {closed : Bool} (held : progress.Holds holds)
    (done : progress.readTag tag closed = .ok after) : after.Holds holds := by
  unfold readTag at done
  simp only [throw, throwThe, MonadExceptOf.throw, pure, Except.pure] at done
  split at done
  · split at done <;> cases done
    exact held
  · split at done
    · cases done
    · rename_i open_
      have kept : ∃ entry, holds entry ∧ progress.library.Keeps entry :=
        held.resolve_left fun ⟨found, isOpen, _⟩ => by rw [open_] at isOpen; cases isOpen
      obtain ⟨entry, _, rest⟩ := bind_eq_ok.mp done
      split at rest
      · exact finish_holds rest (.inr kept)
      · cases rest
        exact .inr kept
    · rename_i open_
      exact read_detail_holds lasting open_ held done
    · cases done

theorem read_holds {reader : Markup.Reader} {event : Markup.Event} (held : progress.Holds holds)
    (done : progress.read reader event = .ok after) : after.Holds holds := by
  cases event with
  | opening tag | selfClosed tag => exact read_tag_holds lasting held done
  | closing name =>
      simp only [read, readClosing] at done
      split at done
      · cases done
        exact held
      · split at done
        · rename_i open_
          refine finish_holds done (held.imp ?_ id)
          rintro ⟨found, isOpen, held⟩
          rw [open_] at isOpen
          obtain rfl := Option.mem_some_iff.mp isOpen
          exact held
        · cases done
          exact held
  | text raw =>
      cases done
      exact document_holds lasting _ held
  | verbatim raw =>
      cases done
      exact document_holds lasting _ held
  | skipped =>
      cases done
      exact held

theorem fold_holds {reader : Markup.Reader} {events : List Markup.Event}
    (held : progress.Holds holds) (done : events.foldlM (read reader) progress = .ok after) :
    after.Holds holds := by
  induction events generalizing progress with
  | nil =>
      cases done
      exact held
  | cons event events induction =>
      rw [List.foldlM_cons] at done
      obtain ⟨next, first, done⟩ := bind_eq_ok.mp done
      exact induction (read_holds lasting held first) done

omit lasting

theorem read_constant {tag : Markup.Tag} {closed : Bool} {value : String}
    (named : tag.name = "LibraryConstant") (valued : valueOf? tag "Value" = some value)
    (done : progress.readTag tag closed = .ok after) :
    ∃ name, valueOf? tag "Name" = some name ∧ after.Holds fun entry =>
      entry.kind = .constant ∧ entry.name = name ∧ entry.value = value := by
  unfold readTag at done
  simp only [throw, throwThe, MonadExceptOf.throw, pure, Except.pure, named] at done
  split at done
  · split at done
    · cases done
    · rename_i root
      exact absurd root (by decide)
  · cases open_ : progress.entry with
    | some entry =>
        rw [open_] at done
        cases done
    | none =>
        rw [open_] at done
        obtain ⟨entry, begun, rest⟩ := bind_eq_ok.mp done
        obtain ⟨kind, name, given⟩ := begin_entry_ok begun
        have same : entry.value = value := Option.some.inj ((given rfl).symm.trans valued)
        refine ⟨entry.name, name, ?_⟩
        split at rest
        · exact finish_holds rest (.inl ⟨kind, rfl, same⟩)
        · cases rest
          exact .inl ⟨entry, rfl, kind, rfl, same⟩

theorem read_property {tag : Markup.Tag} {closed : Bool} {value : String}
    (named : tag.name = "Property") (valued : valueOf? tag "Value" = some value)
    (done : progress.readTag tag closed = .ok after) :
    ∃ name, valueOf? tag "Name" = some name ∧ after.Holds fun entry =>
      entry.metadata.property? name = some value := by
  unfold readTag at done
  simp only [throw, throwThe, MonadExceptOf.throw, pure, Except.pure, named] at done
  split at done
  · split at done
    · cases done
    · rename_i root
      exact absurd root (by decide)
  · cases open_ : progress.entry with
    | none =>
        rw [open_] at done
        cases done
    | some entry =>
        rw [open_] at done
        have detail : progress.readDetail entry tag closed = .ok after := done
        unfold readDetail at detail
        rw [named] at detail
        obtain ⟨extended, added, rest⟩ := bind_eq_ok.mp detail
        cases rest
        obtain ⟨name, other, found, given, _, rfl⟩ := add_property_ok added
        obtain rfl : other = value := Option.some.inj (given.symm.trans valued)
        refine ⟨name, found, .inl ⟨_, rfl, ?_⟩⟩
        simp [Metadata.property?, Metadata.setProperty, lookup_insert_property]

end Progress

theorem Progress.read_end_ok {progress : Progress} {fault : Option String}
    (ended : progress.readEnd fault = .ok ()) : progress.entry = none := by
  unfold Progress.readEnd at ended
  simp only [throw, throwThe, MonadExceptOf.throw, pure, Except.pure] at ended
  split at ended
  · cases ended
  · split at ended
    · cases ended
    · split at ended
      · cases ended
      · rename_i closed
        exact Option.eq_none_iff_forall_ne_some.mpr closed

theorem Progress.loaded_ok_iff {reader : Markup.Reader} {document : String}
    {reading : Markup.Reading} {progress : Progress} {events : List Markup.Located}
    {library : Library} :
    progress.loaded reader document reading events = .ok library ↔
      ∃ after, (events.map (·.event)).foldlM (Progress.read reader) progress = .ok after ∧
        after.readEnd reading.fault = .ok () ∧ after.library = library := by
  induction events generalizing progress with
  | nil =>
      cases ended : progress.readEnd reading.fault with
      | ok done => simp [Progress.loaded, Progress.readAll, ended, pure, Except.pure]
      | error fault => simp [Progress.loaded, Progress.readAll, ended, pure, Except.pure]
  | cons located events induction =>
      rw [List.map_cons, List.foldlM_cons]
      cases read : progress.read reader located.event with
      | ok next =>
          have later : progress.loaded reader document reading (located :: events) =
              next.loaded reader document reading events := by
            simp only [Progress.loaded, Progress.readAll, read]
          rw [later]
          exact induction
      | error fault =>
          simp [Progress.loaded, Progress.readAll, read, bind, Except.bind]

end Descriptor

namespace Library

/-- Whether a document loads, and as what, depends on the events in it and on how they end alone. -/
theorem of_descriptor_ok_iff {reader : Markup.Reader} {document : String} {subsets : List String}
    {library : Library} :
    ofDescriptor reader document subsets = .ok library ↔
      ∃ empty after, ofSubsets subsets = .ok empty ∧
        ((reader.read document).events.map (·.event)).foldlM (Descriptor.Progress.read reader)
          { library := empty } = .ok after ∧
        after.readEnd (reader.read document).fault = .ok () ∧ after.library = library := by
  rw [of_descriptor_eq, bind_eq_ok]
  simp only [Descriptor.Progress.loaded_ok_iff]
  constructor
  · rintro ⟨empty, made, after, done⟩
    exact ⟨empty, after, made, done⟩
  · rintro ⟨empty, after, made, done⟩
    exact ⟨empty, made, after, done⟩

end Library

namespace Markup

/-- A tag without the errors among its attributes. -/
def Tag.heeded (tag : Tag) : Tag := { tag with items := tag.items.filter Option.isSome }

def Event.tag? : Event → Option Tag
  | .opening tag | .selfClosed tag => some tag
  | _ => none

def Event.heeded : Event → Event
  | .opening tag => .opening tag.heeded
  | .selfClosed tag => .selfClosed tag.heeded
  | other => other

/-- The tags that are read, in their order. -/
def Reading.tags (reading : Reading) : List Tag := reading.events.filterMap (·.event.tag?)

/-- One reading is another one without the errors among the attributes. -/
structure Reading.Heeds (heeding reading : Reading) : Prop where
  events : heeding.events.map (·.event) = reading.events.map (·.event.heeded)
  fault : heeding.fault = reading.fault

end Markup

namespace Descriptor

open Markup

theorem attributes_heeded (tag : Tag) : attributes tag.heeded = attributes tag := by
  unfold attributes Tag.heeded
  induction tag.items with
  | nil => rfl
  | cons one items induction =>
      cases one with
      | none => exact induction
      | some pair => exact congrArg (pair :: ·) induction

theorem value_heeded (tag : Tag) (name : String) : valueOf? tag.heeded name = valueOf? tag name := by
  rw [valueOf?, attributes_heeded, valueOf?]

theorem stranger_heeded (tag : Tag) (allowed : List String) :
    stranger? tag.heeded allowed = stranger? tag allowed := by
  rw [stranger?, attributes_heeded, stranger?]

theorem begin_entry_heeded (kind : EntryKind) (tag : Tag) :
    beginEntry kind tag.heeded = beginEntry kind tag := by
  simp only [beginEntry, entryType, entryValue, value_heeded, stranger_heeded]

theorem add_parameter_heeded (entry : Entry) (tag : Tag) :
    addParameter entry tag.heeded = addParameter entry tag := by
  simp only [addParameter, value_heeded, stranger_heeded]

theorem add_property_heeded (entry : Entry) (tag : Tag) :
    addProperty entry tag.heeded = addProperty entry tag := by
  simp only [addProperty, value_heeded, stranger_heeded]

theorem Progress.read_heeded (reader : Reader) (progress : Progress) (event : Event) :
    progress.read reader event.heeded = progress.read reader event := by
  have tags : ∀ (tag : Tag) (closed : Bool),
      progress.readTag tag.heeded closed = progress.readTag tag closed := by
    intro tag closed
    have name : tag.heeded.name = tag.name := rfl
    simp only [Progress.readTag, Progress.readDetail, begin_entry_heeded, add_parameter_heeded,
      add_property_heeded, name]
  cases event with
  | opening tag => exact tags tag false
  | selfClosed tag => exact tags tag true
  | closing name | text raw | verbatim raw | skipped => rfl

theorem Progress.fold_heeded (reader : Reader) (progress : Progress) (events : List Event) :
    (events.map Event.heeded).foldlM (Progress.read reader) progress =
      events.foldlM (Progress.read reader) progress := by
  induction events generalizing progress with
  | nil => rfl
  | cons event events induction =>
      simp only [List.map_cons, List.foldlM_cons, read_heeded, induction]

theorem value_given {tag : Tag} {items : List Attribute} (yields : Yields [] items tag.items)
    {name raw : String} (given : (name, raw) ∈ attributes tag) : valueOf? tag name = some raw := by
  have distinct : ((attributes tag).reverse.map Prod.fst).Nodup := by
    rw [List.map_reverse, List.nodup_reverse]
    exact yields.keys_new.2
  exact lookup_of_mem distinct (List.mem_reverse.mpr given)

/-- Where a document loads, it loads through every tag in it, and what holds of an entry once the tag
is read holds of one that the library keeps. -/
theorem kept_of_loaded {reader : Reader} {document : String} {tag : Tag}
    (present : tag ∈ (reader.read document).tags) {subsets : List String} {library : Library}
    (loaded : Library.ofDescriptor reader document subsets = .ok library) :
    ∃ (progress after : Progress) (closed : Bool), progress.readTag tag closed = .ok after ∧
      ∀ {holds : Entry → Prop}, Lasting holds → after.Holds holds →
        ∃ entry, holds entry ∧ library.Keeps entry := by
  obtain ⟨located, member, tagged⟩ := List.mem_filterMap.mp present
  obtain ⟨before, behind, split⟩ := List.append_of_mem member
  obtain ⟨empty, last, made, done, ended, rfl⟩ := Library.of_descriptor_ok_iff.mp loaded
  rw [split, List.map_append, List.map_cons, List.foldlM_append] at done
  obtain ⟨progress, _, done⟩ := bind_eq_ok.mp done
  rw [List.foldlM_cons] at done
  obtain ⟨after, first, done⟩ := bind_eq_ok.mp done
  have read : ∃ closed, progress.readTag tag closed = .ok after := by
    revert tagged first
    cases located.event with
    | opening found =>
        rintro ⟨⟩ first
        exact ⟨false, first⟩
    | selfClosed found =>
        rintro ⟨⟩ first
        exact ⟨true, first⟩
    | closing name | text raw | verbatim raw | skipped => exact fun tagged => nomatch tagged
  obtain ⟨closed, read⟩ := read
  refine ⟨progress, after, closed, read, fun lasting held => ?_⟩
  rcases Progress.fold_holds lasting held done with ⟨entry, open_, _⟩ | kept
  · rw [Progress.read_end_ok ended] at open_
    cases open_
  · exact kept

end Descriptor

section

open Markup Descriptor

/-- Attributes are read as they are written, without those that are malformed or repeat another. So
a tag is read faithfully exactly if all of its attributes are well-formed, no key occurs twice and
every value stands for itself, which an escaped text does exactly if nothing in it had to be escaped.
A document loads exactly if it loads without the errors, and what is loaded has the values as they
are written. All of this holds whichever reader gives the attributes. -/
theorem attributes_read_raw {reader : Reader}
    (unescapes : ∀ text, reader.unescape? (escape text) = some text) {document : String} {tag : Tag}
    (present : tag ∈ (reader.read document).tags) {items : List Attribute}
    (yields : Yields [] items tag.items) (subsets : List String) (library : Library) :
    ((attributes tag).map some = meanings reader items ↔
      (∀ item ∈ items, ∃ raw ∈ item.raw?, reader.unescape? raw = some raw) ∧
        (items.map Attribute.key).Nodup) ∧
    (∀ other, (reader.read other).Heeds (reader.read document) →
      (Library.ofDescriptor reader document subsets = .ok library ↔
        Library.ofDescriptor reader other subsets = .ok library)) ∧
    (Library.ofDescriptor reader document subsets = .ok library →
      ∀ raw, ("Value", raw) ∈ attributes tag →
        (tag.name = "LibraryConstant" → ∃ name, valueOf? tag "Name" = some name ∧
          ∃ entry, (entry.kind = .constant ∧ entry.name = name ∧ entry.value = raw) ∧
            library.Keeps entry) ∧
        (tag.name = "Property" → ∃ name, valueOf? tag "Name" = some name ∧
          ∃ entry, entry.metadata.property? name = some raw ∧ library.Keeps entry)) ∧
    ∀ text, reader.unescape? (escape text) = some (escape text) ↔
      ∀ char ∈ text.toList, isSpecial char = false := by
  refine ⟨yields.faithful_iff, fun other heeds => ?_, fun loaded raw given => ?_, fun text => ?_⟩
  · have events : (reader.read other).events.map (·.event) =
        ((reader.read document).events.map (·.event)).map Event.heeded := by
      rw [heeds.events, List.map_map]
      rfl
    rw [Library.of_descriptor_ok_iff, Library.of_descriptor_ok_iff, heeds.fault, events]
    simp only [Progress.fold_heeded]
  · obtain ⟨progress, after, closed, read, keeps⟩ := kept_of_loaded present loaded
    have valued := value_given yields given
    constructor
    · intro named
      obtain ⟨name, found, held⟩ := Progress.read_constant named valued read
      exact ⟨name, found, keeps (lasting_constant name raw) held⟩
    · intro named
      obtain ⟨name, found, held⟩ := Progress.read_property named valued read
      exact ⟨name, found, keeps (lasting_property name raw) held⟩
  · rw [unescapes, ← escape_eq_self_iff, Option.some_inj, eq_comm]

/-- A reference stays in the value, and the value that repeats it is passed over. -/
theorem repeated_reference_read_raw :
    let document := "<LibraryData><LibraryConstant Name=\"A\" Type=\"String\"" ++
      " Subsets=\"lsl\" Value=\"&amp;\" Value=\"B\"/></LibraryData>"
    let items : List Attribute := [⟨"Name", some "A"⟩, ⟨"Type", some "String"⟩,
      ⟨"Subsets", some "lsl"⟩, ⟨"Value", some "&amp;"⟩, ⟨"Value", some "B"⟩]
    let tag : Tag := ⟨"LibraryConstant", [some ("Name", "A"), some ("Type", "String"),
      some ("Subsets", "lsl"), some ("Value", "&amp;"), none]⟩
    let library : Library := { active := ["lsl"], constants := [⟨⟨"A", .string, "&amp;"⟩,
      { subsets := ["lsl"] }⟩] }
    (∀ text, scanner.unescape? (escape text) = some text) ∧
      tag ∈ (scanner.read document).tags ∧ Yields [] items tag.items ∧
      Library.ofDescriptor scanner document ["lsl"] = .ok library ∧
      (attributes tag).map some ≠ meanings scanner items ∧
      ∃ entry, (entry.kind = .constant ∧ entry.name = "A" ∧ entry.value = "&amp;") ∧
        library.Keeps entry := by
  intro document items tag library
  have present : tag ∈ (scanner.read document).tags := by decide +kernel
  have yields : Yields [] items tag.items :=
    .value (by decide) (.value (by decide) (.value (by decide) (.value (by decide)
      (.repeated (by decide) (.nil _)))))
  have loaded : Library.ofDescriptor scanner document ["lsl"] = .ok library := by decide +kernel
  obtain ⟨faithful, -, kept, -⟩ :=
    attributes_read_raw unescape_escape present yields ["lsl"] library
  obtain ⟨name, named, entry, held, keeps⟩ :=
    (kept loaded "&amp;" (by decide)).1 rfl
  have same : name = "A" := Option.some.inj (named.symm.trans (by decide))
  have repeated : ¬ (items.map Attribute.key).Nodup := by decide
  exact ⟨unescape_escape, present, yields, loaded, fun all => repeated (faithful.mp all).2, entry,
    same ▸ held, keeps⟩

/-- A value does not mean what it is written for, and neither a repeated nor a malformed attribute
keeps a document from loading. -/
theorem written_value_stored :
    let document (given : String) := "<LibraryData><LibraryConstant Name=\"A\" Type=\"String\"" ++
      " Subsets=\"lsl\" " ++ given ++ "/></LibraryData>"
    let holding (value : String) : Library := { active := ["lsl"], constants :=
      [⟨⟨"A", .string, value⟩, { subsets := ["lsl"] }⟩] }
    (escape "&" = "&amp;" ∧
      Library.ofDescriptor scanner (document "Value=\"&amp;\"") ["lsl"] = .ok (holding "&amp;")) ∧
    Library.ofDescriptor scanner (document "Value=\"B\" Value=\"C\"") ["lsl"] = .ok (holding "B") ∧
    Library.ofDescriptor scanner (document "Value=\"B\" Variadic") ["lsl"] = .ok (holding "B") := by
  decide +kernel

end

end Lsl
