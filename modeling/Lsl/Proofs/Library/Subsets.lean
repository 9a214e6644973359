import Lsl.Markup.Scanner
import Lsl.Proofs.Library.Formation
import Mathlib.Data.List.Nodup

/-!
One descriptor read with more and with fewer subsets active. Whatever is read is checked in the same
way; only what is kept differs. So the reading with fewer subsets goes on as long as the other one
does, and keeps the part of what the other one keeps that is published under one of them.
-/

set_option autoImplicit false

namespace Lsl

theorem mem_insert_name {name other : String} {names : List String} :
    other ∈ insertName name names ↔ other = name ∨ other ∈ names := by
  induction names with
  | nil => simp [insertName]
  | cons first rest induction =>
      simp only [insertName]
      split
      · rename_i same
        simp [same]
      · split
        · simp
        · simp only [List.mem_cons, induction]
          tauto

theorem mem_sorted_names {name : String} {names : List String} :
    name ∈ sortedNames names ↔ name ∈ names := by
  have fold : ∀ sorted : List String,
      name ∈ names.foldl (fun sorted name => insertName name sorted) sorted ↔
        name ∈ sorted ∨ name ∈ names := by
    induction names with
    | nil => simp
    | cons first rest induction =>
        intro sorted
        rw [List.foldl_cons, induction, mem_insert_name, List.mem_cons]
        tauto
  simpa [sortedNames] using fold []

theorem Metadata.shares_subset_iff {metadata : Metadata} {active : List String} :
    metadata.sharesSubset active = true ↔ ∃ subset ∈ metadata.subsets, subset ∈ active := by
  simp [sharesSubset]

@[simp] theorem Metadata.shares_sorted_names (metadata : Metadata) (active : List String) :
    metadata.sharesSubset (sortedNames active) = metadata.sharesSubset active := by
  rw [Bool.eq_iff_iff, shares_subset_iff, shares_subset_iff]
  simp only [mem_sorted_names]

/-- How two readings go when the second has fewer subsets active: both go on, or both fail in the
same way, or the first one fails because of something that it has already and that the second may not
have. -/
inductive Lockstep {ε α β : Type} (known : ε → Prop) (related : α → β → Prop) :
    Except ε α → Except ε β → Prop
  | done {value : α} {other : β} (holds : related value other) :
      Lockstep known related (.ok value) (.ok other)
  | failed (error : ε) : Lockstep known related (.error error) (.error error)
  | ahead {error : ε} (repeated : known error) (outcome : Except ε β) :
      Lockstep known related (.error error) outcome

namespace Lockstep

variable {ε α β γ δ : Type} {known : ε → Prop} {related : α → β → Prop} {after : γ → δ → Prop}

theorem bind {first : Except ε α} {second : Except ε β} {next : α → Except ε γ}
    {other : β → Except ε δ} (lockstep : Lockstep known related first second)
    (rest : ∀ value found, related value found → Lockstep known after (next value) (other found)) :
    Lockstep known after (first >>= next) (second >>= other) := by
  cases lockstep with
  | done holds => exact rest _ _ holds
  | failed error => exact .failed error
  | ahead repeated outcome => exact .ahead repeated _

theorem same_bind {first : Except ε α} {next : α → Except ε γ} {other : α → Except ε δ}
    (rest : ∀ value, Lockstep known after (next value) (other value)) :
    Lockstep known after (first >>= next) (first >>= other) := by
  cases first with
  | error error => exact .failed error
  | ok value => exact rest value

end Lockstep

/-- The addition of something that is there already. -/
def Failure.IsRepeat : Failure → Prop
  | .duplicateSignature _ => True
  | _ => False

namespace Library

def restrict (library : Library) (active : List String) : Library where
  active := active
  functions := library.functions.filter (·.metadata.sharesSubset active)
  events := library.events.filter (·.metadata.sharesSubset active)
  constants := library.constants.filter (·.metadata.sharesSubset active)

/-- The first library has all the subsets active that are given, and the second is the part of it
that is published under one of them. -/
structure Narrows (active : List String) (library narrow : Library) : Prop where
  within : ∀ subset ∈ active, subset ∈ library.active
  restricts : narrow = library.restrict active

section

variable {active : List String} {library narrow : Library} (narrows : library.Narrows active narrow)

include narrows

theorem Narrows.shares {metadata : Metadata} (shared : metadata.sharesSubset active = true) :
    metadata.sharesSubset library.active = true := by
  rw [Metadata.shares_subset_iff] at shared ⊢
  rcases shared with ⟨subset, published, member⟩
  exact ⟨subset, published, narrows.within subset member⟩

theorem Narrows.adds {metadata : Metadata} {clash clashes : Bool} {signature : String}
    {extended smaller : Library} (there : clashes = true → clash = true)
    (left : metadata.sharesSubset active = false → extended.Narrows active narrow)
    (taken : metadata.sharesSubset active = true → extended.Narrows active smaller) :
    Lockstep Failure.IsRepeat (fun (wide small : Library × Bool) => wide.1.Narrows active small.1)
      (if !metadata.sharesSubset library.active then .ok (library, false)
        else if clash then .error (.duplicateSignature signature) else .ok (extended, true))
      (if !metadata.sharesSubset narrow.active then .ok (narrow, false)
        else if clashes then .error (.duplicateSignature signature) else .ok (smaller, true)) := by
  have few : narrow.active = active := congrArg Library.active narrows.restricts
  rw [few]
  cases shared : metadata.sharesSubset active with
  | true =>
      rw [narrows.shares shared]
      cases clash with
      | true => exact .ahead trivial _
      | false =>
          have apart : clashes = false := Bool.eq_false_iff.mpr fun found => nomatch there found
          rw [apart]
          exact .done (taken shared)
  | false =>
      cases kept : metadata.sharesSubset library.active with
      | false => exact .done narrows
      | true =>
          cases clash with
          | true => exact .ahead trivial _
          | false => exact .done (left shared)

theorem Narrows.add_function (function : LibraryFunction) :
    Lockstep Failure.IsRepeat (fun wide small => wide.1.Narrows active small.1)
      (library.addFunction function) (narrow.addFunction function) := by
  apply narrows.adds
  · rw [narrows.restricts]
    simp only [overloads, restrict, List.any_eq_true, List.mem_filter]
    rintro ⟨other, ⟨⟨member, _⟩, named⟩, agree⟩
    exact ⟨other, ⟨member, named⟩, agree⟩
  · intro unshared
    exact ⟨narrows.within, by simp [narrows.restricts, restrict, unshared]⟩
  · intro shared
    exact ⟨narrows.within, by simp [narrows.restricts, restrict, shared]⟩

theorem Narrows.add_event (event : LibraryEvent) :
    Lockstep Failure.IsRepeat (fun wide small => wide.1.Narrows active small.1)
      (library.addEvent event) (narrow.addEvent event) := by
  apply narrows.adds
  · rw [narrows.restricts]
    simp only [event?, restrict, List.find?_isSome, List.mem_filter]
    rintro ⟨other, ⟨member, _⟩, named⟩
    exact ⟨other, member, named⟩
  · intro unshared
    exact ⟨narrows.within, by simp [narrows.restricts, restrict, unshared]⟩
  · intro shared
    exact ⟨narrows.within, by simp [narrows.restricts, restrict, shared]⟩

theorem Narrows.add_constant (constant : LibraryConstant) :
    Lockstep Failure.IsRepeat (fun wide small => wide.1.Narrows active small.1)
      (library.addConstant constant) (narrow.addConstant constant) := by
  apply narrows.adds
  · rw [narrows.restricts]
    simp only [constant?, restrict, List.find?_isSome, List.mem_filter]
    rintro ⟨other, ⟨member, _⟩, named⟩
    exact ⟨other, member, named⟩
  · intro unshared
    exact ⟨narrows.within, by simp [narrows.restricts, restrict, unshared]⟩
  · intro shared
    exact ⟨narrows.within, by simp [narrows.restricts, restrict, shared]⟩

theorem Narrows.add_entry (entry : Entry) :
    Lockstep Failure.IsRepeat (Narrows active) (library.addEntry entry) (narrow.addEntry entry) := by
  unfold Library.addEntry
  split
  · exact .same_bind fun signature =>
      (narrows.add_function ⟨signature, entry.metadata⟩).bind fun _ _ holds => .done holds
  · exact .same_bind fun signature =>
      (narrows.add_event ⟨signature, entry.metadata⟩).bind fun _ _ holds => .done holds
  · exact .same_bind fun signature =>
      (narrows.add_constant ⟨signature, entry.metadata⟩).bind fun _ _ holds => .done holds

end

end Library

namespace Descriptor

/-- An entry was refused because the library has it. -/
def Fault.IsRepeat : Fault → Prop
  | .refused _ failure => failure.IsRepeat
  | _ => False

theorem within_lockstep {α β : Type} {related : α → β → Prop} {label : String}
    {first : Except Failure α} {second : Except Failure β}
    (lockstep : Lockstep Failure.IsRepeat related first second) :
    Lockstep Fault.IsRepeat related (within label first) (within label second) := by
  cases lockstep with
  | done holds => exact .done holds
  | failed failure => exact .failed _
  | @ahead failure repeated outcome =>
      have still : (Fault.refused label failure).IsRepeat := repeated
      exact .ahead still _

end Descriptor

/-- The report of an entry that the library has already. -/
def Failure.IsRepeatOf (failure : Failure) : Prop :=
  ∃ (line : Nat) (fault : Descriptor.Fault), fault.IsRepeat ∧
    failure = .libraryData line fault.message

namespace Descriptor.Progress

/-- The library after the events that are left of a reading, unless something is at fault. -/
def loaded (reader : Markup.Reader) (document : String) (reading : Markup.Reading)
    (progress : Progress) (events : List Markup.Located) : Except Failure Library :=
  match progress.readAll reader document reading events with
  | (after, none) => .ok after.library
  | (_, some failure) => .error failure

/-- Two readings that are equally far and differ in their libraries alone. -/
inductive Narrows (active : List String) (progress : Progress) : Progress → Prop
  | intro {small : Library} (holds : progress.library.Narrows active small) :
      Narrows active progress { progress with library := small }

section

variable {active : List String} {progress narrow : Progress}
  (narrows : progress.Narrows active narrow)

include narrows

theorem Narrows.finish (entry : Entry) :
    Lockstep Fault.IsRepeat (Narrows active) (progress.finish entry) (narrow.finish entry) := by
  cases narrows with
  | intro holds =>
      exact (within_lockstep (holds.add_entry entry)).bind fun library small holds =>
        .done (.intro holds)

theorem Narrows.document (extend : String → String) :
    (progress.document extend).Narrows active (narrow.document extend) := by
  cases narrows with
  | intro holds =>
      unfold Progress.document
      dsimp only
      split
      · exact .intro holds
      · exact .intro holds

theorem Narrows.read_detail (entry : Entry) (tag : Markup.Tag) (closed : Bool) :
    Lockstep Fault.IsRepeat (Narrows active) (progress.readDetail entry tag closed)
      (narrow.readDetail entry tag closed) := by
  cases narrows with
  | intro holds =>
      unfold Progress.readDetail
      split
      · exact .same_bind fun _ => .done (.intro holds)
      · exact .same_bind fun _ => .done (.intro holds)
      · exact .done (.intro holds)
      · exact .failed _

theorem Narrows.read_tag (tag : Markup.Tag) (closed : Bool) :
    Lockstep Fault.IsRepeat (Narrows active) (progress.readTag tag closed)
      (narrow.readTag tag closed) := by
  have details := fun entry => narrows.read_detail entry tag closed
  have finished := narrows.finish
  cases narrows with
  | intro holds =>
      unfold Progress.readTag
      simp only [throw, throwThe, MonadExceptOf.throw, pure, Except.pure]
      split
      · split
        · exact .failed _
        · exact .done (.intro holds)
      · split
        · exact .failed _
        · refine .same_bind fun entry => ?_
          split
          · exact finished entry
          · exact .done (.intro holds)
        · exact details _
        · exact .failed _

theorem Narrows.read_closing (name : String) :
    Lockstep Fault.IsRepeat (Narrows active) (progress.readClosing name)
      (narrow.readClosing name) := by
  have finished := narrows.finish
  cases narrows with
  | intro holds =>
      unfold Progress.readClosing
      dsimp only
      split
      · exact .done (.intro holds)
      · split
        · exact finished _
        · exact .done (.intro holds)

theorem Narrows.read_end (fault : Option String) :
    progress.readEnd fault = narrow.readEnd fault := by
  cases narrows with
  | intro holds => rfl

theorem Narrows.read (reader : Markup.Reader) (event : Markup.Event) :
    Lockstep Fault.IsRepeat (Narrows active) (progress.read reader event)
      (narrow.read reader event) := by
  cases event with
  | opening tag => exact narrows.read_tag tag false
  | selfClosed tag => exact narrows.read_tag tag true
  | closing name => exact narrows.read_closing name
  | text raw => exact .done (narrows.document _)
  | verbatim raw => exact .done (narrows.document _)
  | skipped => exact .done narrows

/-- Up to an entry that is there already both readings go on and stop together. -/
theorem Narrows.read_all (reader : Markup.Reader) (document : String) (reading : Markup.Reading)
    (events : List Markup.Located) :
    Lockstep Failure.IsRepeatOf (Library.Narrows active)
      (progress.loaded reader document reading events)
      (narrow.loaded reader document reading events) := by
  induction events generalizing progress narrow with
  | nil =>
      have ends := narrows.read_end reading.fault
      cases narrows with
      | intro holds =>
          simp only [loaded, Progress.readAll, ends]
          split <;> rename_i finished <;> split at finished <;> cases finished
          · exact .done holds
          · exact .failed _
  | cons located events induction =>
      have lockstep := narrows.read reader located.event
      generalize outcome : progress.read reader located.event = wide at lockstep
      generalize small : narrow.read reader located.event = other at lockstep
      cases lockstep with
      | done holds =>
          simp only [loaded, Progress.readAll, outcome, small]
          exact induction holds
      | failed fault =>
          simp only [loaded, Progress.readAll, outcome, small]
          exact .failed _
      | ahead repeated _ =>
          simp only [loaded, Progress.readAll, outcome]
          exact .ahead ⟨_, _, repeated, rfl⟩ _

end

end Descriptor.Progress

namespace Library

theorem of_descriptor_eq (reader : Markup.Reader) (document : String) (subsets : List String) :
    ofDescriptor reader document subsets = ofSubsets subsets >>= fun library =>
      Descriptor.Progress.loaded reader document (reader.read document) { library }
        (reader.read document).events := by
  unfold ofDescriptor load Descriptor.Progress.loaded
  congr 1
  funext library
  dsimp only
  rcases Descriptor.Progress.readAll reader document (reader.read document) { library }
    (reader.read document).events with ⟨after, _ | failure⟩ <;> rfl

theorem of_subsets_ok {subsets : List String}
    (valid : ∀ subset ∈ subsets, isSubsetName subset = true) :
    ofSubsets subsets = .ok { active := sortedNames subsets } := by
  have fine : subsets.forM checkSubsetName = .ok () := by
    induction subsets with
    | nil => rfl
    | cons subset rest induction =>
        have first : checkSubsetName subset = .ok () := if_pos (valid subset List.mem_cons_self)
        have others := induction fun other member => valid other (List.mem_cons_of_mem _ member)
        simp only [List.forM_eq_forM, List.forM_cons, first] at others ⊢
        exact others
  rw [ofSubsets, fine]
  rfl

/-- Where names are told apart, looking among some of the items is looking among all of them and
seeing whether what was found is one of the some. -/
theorem find_filter {α : Type} {name : α → String} {items : List α}
    (distinct : (items.map name).Nodup) (keep : α → Bool) (wanted : String) :
    (items.filter keep).find? (name · == wanted) =
      (items.find? (name · == wanted)).filter keep := by
  induction items with
  | nil => rfl
  | cons item items induction =>
      rw [List.map_cons, List.nodup_cons] at distinct
      have others := induction distinct.2
      by_cases found : name item = wanted
      · have absent : (items.filter keep).find? (name · == wanted) = none := by
          rw [List.find?_eq_none]
          intro other member same
          have inside := List.mem_map_of_mem (f := name) (List.mem_of_mem_filter member)
          rw [beq_iff_eq.mp same, ← found] at inside
          exact distinct.1 inside
        cases kept : keep item with
        | true => simp [kept, found, Option.filter]
        | false => simp [kept, found, absent, Option.filter]
      · cases kept : keep item with
        | true => simp [kept, found, others]
        | false => simp [kept, found, others]

theorem nodup_map_concat {α : Type} {name : α → String} {items : List α} {item : α}
    (distinct : (items.map name).Nodup) (new : (items.find? (name · == name item)).isSome = false) :
    ((items ++ [item]).map name).Nodup := by
  rw [List.map_append, List.map_singleton, List.nodup_append]
  refine ⟨distinct, List.nodup_singleton _, fun other member found single same => ?_⟩
  rcases List.mem_map.mp member with ⟨known, inside, rfl⟩
  rw [List.mem_singleton.mp single] at same
  have there : (items.find? (name · == name item)).isSome = true :=
    List.find?_isSome.mpr ⟨known, inside, by simpa using same⟩
  rw [new] at there
  cases there

theorem Grown.names_distinct {library : Library} (grown : library.Grown) :
    (library.events.map LibraryEvent.name).Nodup ∧
      (library.constants.map LibraryConstant.name).Nodup := by
  induction grown with
  | empty made =>
      obtain ⟨_, _, rest⟩ := bind_eq_ok.mp made
      cases rest
      exact ⟨List.nodup_nil, List.nodup_nil⟩
  | function _ _ added induction =>
      unfold Library.addFunction at added
      split at added
      · cases added
        exact induction
      · split at added <;> cases added
        exact induction
  | event _ added induction =>
      unfold Library.addEvent at added
      split at added
      · cases added
        exact induction
      · split at added
        · cases added
        · rename_i new
          cases added
          exact ⟨nodup_map_concat induction.1 (Bool.eq_false_iff.mpr new), induction.2⟩
  | constant _ _ added induction =>
      unfold Library.addConstant at added
      split at added
      · cases added
        exact induction
      · split at added
        · cases added
        · rename_i new
          cases added
          exact ⟨induction.1, nodup_map_concat induction.2 (Bool.eq_false_iff.mpr new)⟩

/-- The part of a library that the lookups of another one see. -/
structure Shows (active : List String) (library small : Library) : Prop where
  overloads : ∀ name, small.overloads name =
    (library.overloads name).filter (·.metadata.sharesSubset active)
  event : ∀ name, small.event? name =
    (library.event? name).filter (·.metadata.sharesSubset active)
  constant : ∀ name, small.constant? name =
    (library.constant? name).filter (·.metadata.sharesSubset active)

theorem Narrows.shows {active : List String} {library small : Library} (grown : library.Grown)
    (narrows : library.Narrows active small) : library.Shows active small := by
  rw [narrows.restricts]
  refine ⟨fun name => ?_, ?_, ?_⟩
  · simp only [Library.overloads, restrict, List.filter_filter, Bool.and_comm]
  · exact find_filter grown.names_distinct.1 _
  · exact find_filter grown.names_distinct.2 _

theorem Shows.sorted {active : List String} {library small : Library}
    (shows : library.Shows (sortedNames active) small) : library.Shows active small where
  overloads := by simpa using shows.overloads
  event := by simpa using shows.event
  constant := by simpa using shows.constant

end Library

/-- Fewer active subsets: if a descriptor can be loaded with all of them, it can be loaded with some
of them, and every lookup gives what it gave before, as far as it is published under one of these, in
the same order. And if it cannot be loaded with some of them, it cannot be loaded with all of them
either: the same is reported, unless an entry in front of it is there already. The reader of the
document may be any that gives the same events for the same document. -/
theorem load_narrowed (reader : Markup.Reader) {document : String} {wide narrow : List String}
    (valid : ∀ subset ∈ wide, isSubsetName subset = true)
    (within : ∀ subset ∈ narrow, subset ∈ wide) :
    (∀ library, Library.ofDescriptor reader document wide = .ok library →
      ∃ small, Library.ofDescriptor reader document narrow = .ok small ∧ library.Shows narrow small) ∧
    (∀ failure, Library.ofDescriptor reader document narrow = .error failure →
      Library.ofDescriptor reader document wide = .error failure ∨
        ∃ earlier, earlier.IsRepeatOf ∧ Library.ofDescriptor reader document wide = .error earlier) := by
  have lockstep : Lockstep Failure.IsRepeatOf (Library.Narrows (sortedNames narrow))
      (Library.ofDescriptor reader document wide) (Library.ofDescriptor reader document narrow) := by
    rw [Library.of_descriptor_eq, Library.of_descriptor_eq, Library.of_subsets_ok valid,
      Library.of_subsets_ok fun subset member => valid subset (within subset member)]
    apply Descriptor.Progress.Narrows.read_all
    exact .intro ⟨fun subset member =>
      mem_sorted_names.mpr (within subset (mem_sorted_names.mp member)), rfl⟩
  constructor
  · intro library loaded
    have grown := Library.of_descriptor_grown loaded
    rw [loaded] at lockstep
    generalize narrowed : Library.ofDescriptor reader document narrow = outcome at lockstep
    cases lockstep with
    | @done _ small narrows => exact ⟨small, rfl, (narrows.shows grown).sorted⟩
  · intro failure refused
    rw [refused] at lockstep
    generalize widened : Library.ofDescriptor reader document wide = outcome at lockstep
    cases lockstep with
    | failed => exact .inl rfl
    | @ahead earlier repeated => exact .inr ⟨earlier, repeated, rfl⟩

/-- Of two overloads in two subsets the second is left if only its subset is active. -/
theorem second_overload_left :
    let document := "<LibraryData><LibraryFunction Name='f' Subsets='lsl'>" ++
      "<Parameter Name='x' Type='Key'/></LibraryFunction>" ++
      "<LibraryFunction Name='f' Subsets='lsl, os'/></LibraryData>"
    let first : LibraryFunction := ⟨⟨"f", .void, [⟨"x", .key, false, 0⟩]⟩, { subsets := ["lsl"] }⟩
    let second : LibraryFunction := ⟨⟨"f", .void, []⟩, { subsets := ["lsl", "os"] }⟩
    (∀ subset ∈ ["lsl", "os"], isSubsetName subset = true) ∧
      (∀ subset ∈ ["os"], subset ∈ ["lsl", "os"]) ∧
      Library.ofDescriptor Markup.scanner document ["lsl", "os"] =
        .ok { active := ["lsl", "os"], functions := [first, second] } ∧
      ∃ small, Library.ofDescriptor Markup.scanner document ["os"] = .ok small ∧
        small.overloads "f" = [second] := by
  intro document first second
  have valid : ∀ subset ∈ ["lsl", "os"], isSubsetName subset = true := by decide
  have within : ∀ subset ∈ ["os"], subset ∈ ["lsl", "os"] := by decide
  have loaded : Library.ofDescriptor Markup.scanner document ["lsl", "os"] =
      .ok { active := ["lsl", "os"], functions := [first, second] } := by decide +kernel
  rcases (load_narrowed Markup.scanner valid within).1 _ loaded with ⟨small, narrowed, shows⟩
  exact ⟨valid, within, loaded, small, narrowed, shows.overloads "f"⟩

end Lsl
