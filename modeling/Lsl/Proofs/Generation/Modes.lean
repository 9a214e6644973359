import Lsl.Proofs.Generation.Closure
import Lsl.Proofs.Generation.Independence
import Lsl.Proofs.Target.Layout

/-!
A program in a class of its own and in one of its host. The functions, the handlers and the methods
of operations are written alike, one behind the other: the lines are indented by another depth, and
globals are reached in another way. The constructors set the same globals to the same values.
-/

set_option autoImplicit false

namespace Lsl

open Fragment (line gap banner braced Twins)
open GlobalAccess (pairs)

/-- The texts of fragments are alike, with all pairs of words if nothing stops them. -/
def WrittenAlike (pairs : List (String × String)) (first second : List Fragment) : Prop :=
  ∃ front, front <+: pairs ∧ (Fragment.failure? first = none → front = pairs) ∧
    Alike true front (Fragment.emitted first) (Fragment.emitted second)

theorem Fragment.Twins.written_alike {stop : Bool} {pairs : List (String × String)}
    {first second : List Fragment} (twins : Twins true stop pairs first second) :
    WrittenAlike pairs first second := twins.emitted_alike

def Method.terms (method : Method) : List Code := CodeStmt.listTerms method.body

/-- The words that set a global in a constructor, and those that reach globals in its value. -/
def GlobalField.pairs (global : GlobalField) : List (String × String) :=
  ("GV_" ++ global.name ++ " = ", "this.V_" ++ global.name ++ " = ") ::
    GlobalAccess.pairs .field .inside global.value.terms

namespace Fragment

theorem twin_gap (count : Nat) : Twins true true [] [gap count] [gap count] := by
  have lines : leadsBehindText true (String.ofList (List.replicate count '\n')) = true := by
    rw [leadsBehindText, String.toList_ofList]
    induction count with
    | zero => rfl
    | succ count induction => exact induction
  refine .text _ ?_
  rw [lines]
  exact .done

theorem twin_banner (depth other : Nat) (title : String) :
    Twins true true [] (banner depth title) (banner other title) := by
  have whole := ((twin_line depth other ("//" ++ String.ofList
    (List.replicate (title.length + 6) '='))).append (twin_line depth other
      ("//== " ++ title ++ " =="))).append (twin_line depth other ("//" ++ String.ofList
        (List.replicate (title.length + 6) '=')))
  exact whole

theorem twin_items {α : Type} (pairs : α → List (String × String))
    (write other : α → List Fragment) (items : List α)
    (twins : ∀ item, Twins true true (pairs item) (write item) (other item)) :
    Twins true true (items.flatMap pairs) (items.flatMap write) (items.flatMap other) := by
  induction items with
  | nil => exact .done
  | cons item items induction =>
      rw [List.flatMap_cons, List.flatMap_cons, List.flatMap_cons]
      exact (twins item).append induction

theorem twin_separated {α : Type} (count : Nat) (pairs : α → List (String × String))
    (write other : α → List Fragment) (items : List α)
    (twins : ∀ item, Twins true true (pairs item) (write item) (other item)) :
    Twins true true (items.flatMap pairs) (separated [gap count] (items.map write))
      (separated [gap count] (items.map other)) := by
  induction items with
  | nil => exact .done
  | cons item items induction =>
      have between : Twins true true [] (if items.isEmpty then [] else [gap count])
          (if items.isEmpty then [] else [gap count]) := by
        split
        · exact .done
        · exact twin_gap count
      have whole := ((twins item).append between).append induction
      rw [List.append_nil] at whole
      simpa only [List.map_cons, separated, List.isEmpty_map, List.flatMap_cons] using whole

end Fragment

open Fragment (twin_line twin_gap twin_banner twin_braces twin_items twin_separated)

theorem GlobalAccess.pairs_flat_map {α : Type} (access other : GlobalAccess)
    (terms : α → List Code) (list : List α) :
    pairs access other (list.flatMap terms) = list.flatMap fun value =>
      pairs access other (terms value) := by
  simp only [pairs, List.filterMap_flatMap, List.map_flatMap]

theorem Method.twins (access other : GlobalAccess) (depth inner : Nat) (method : Method) :
    Twins true true (pairs access other method.terms) (method.fragments access depth)
      (method.fragments other inner) :=
  (twin_line depth inner method.heading).append (twin_braces depth inner
    (CodeStmt.list_twins access other (depth + 1) (inner + 1) method.body))

theorem Operation.twins (keysAreStrings : Bool) (depth inner : Nat) (operation : Operation) :
    Twins true true [] (operation.fragments keysAreStrings depth)
      (operation.fragments keysAreStrings inner) :=
  (twin_line depth inner _).append (twin_braces depth inner (twin_line (depth + 1) (inner + 1) _))

theorem GlobalField.assignment_twins (depth inner : Nat) (global : GlobalField) :
    Twins true true global.pairs (global.assignment .field "GV_" depth)
      (global.assignment .inside "this.V_" inner) := by
  have target : Fragment.Inline [("GV_" ++ global.name ++ " = ", "this.V_" ++ global.name ++ " = ")]
      [.text ("GV_" ++ global.name ++ " = ")] [.text ("this.V_" ++ global.name ++ " = ")] :=
    fun leads => ⟨false, .words _ _ .done⟩
  exact (target.append (global.value.inline .field .inside)).line depth inner ";"

namespace Program

variable (program : Program)

/-- The handlers of all states but the default state. -/
def userStateFragments (settings : Settings) : List Fragment :=
  if program.states.isEmpty then []
  else
    [gap 1] ++ banner settings.depth "User Defined State Event Handlers" ++ [gap 2] ++
      program.states.flatMap fun handlers => handlerFragments settings handlers ++ [gap 2]

/-- The functions, the handlers and the methods of operations, with what stands between them. -/
def definitionFragments (settings : Settings) : List Fragment :=
  program.functionFragments settings ++ program.stateFragments settings ++
    program.operationFragments settings

theorem definitions_written (settings : Settings) (date : String) :
    program.definitionFragments settings <:+: program.fragments settings date := by
  rw [fragments]
  refine infix_left _ ?_
  rw [definitionFragments]
  simp only [List.append_assoc]
  refine infix_right _ (infix_right _ (infix_right _ (infix_right _ (infix_right _ ?_))))
  exact List.infix_rfl

section

variable (first second : Settings)

theorem function_twins :
    Twins true true (pairs first.access second.access (program.functions.flatMap Method.terms))
      (program.functionFragments first) (program.functionFragments second) := by
  unfold functionFragments
  split
  · rename_i none
    rw [List.isEmpty_iff.mp none]
    exact .done
  · have title := (twin_banner first.depth second.depth "User Defined Functions").append
      (twin_gap 2)
    have items := twin_items _ _ _ program.functions fun method =>
      (method.twins first.access second.access first.depth second.depth).append (twin_gap 2)
    simp only [List.append_nil] at items
    rw [GlobalAccess.pairs_flat_map]
    exact title.append items

theorem handler_twins (handlers : List Method) :
    Twins true true (pairs first.access second.access (handlers.flatMap Method.terms))
      (handlerFragments first handlers) (handlerFragments second handlers) := by
  rw [GlobalAccess.pairs_flat_map]
  exact twin_separated 1 _ _ _ handlers fun method =>
    method.twins first.access second.access first.depth second.depth

theorem user_state_twins :
    Twins true true (pairs first.access second.access (program.states.flatten.flatMap Method.terms))
      (program.userStateFragments first) (program.userStateFragments second) := by
  unfold userStateFragments
  split
  · rename_i none
    rw [List.isEmpty_iff.mp none]
    exact .done
  · have title := ((twin_gap 1).append (twin_banner first.depth second.depth
      "User Defined State Event Handlers")).append (twin_gap 2)
    have items := twin_items _ _ _ program.states fun handlers =>
      (handler_twins first second handlers).append (twin_gap 2)
    simp only [List.append_nil] at items
    rw [← List.flatMap_id', List.flatMap_assoc, GlobalAccess.pairs_flat_map]
    exact title.append items

theorem state_twins :
    Twins true true (pairs first.access second.access
        ((program.states.flatten ++ program.defaultState.getD []).flatMap Method.terms))
      (program.stateFragments first) (program.stateFragments second) := by
  rw [List.flatMap_append, GlobalAccess.pairs_append]
  refine (program.user_state_twins first second).append ?_
  cases program.defaultState with
  | none => exact .fault _ .done
  | some handlers =>
      have title := ((twin_gap 1).append (twin_banner first.depth second.depth
        "Default State Event Handlers")).append (twin_gap 2)
      exact title.append (handler_twins first second handlers)

theorem operation_twins (same : first.keysAreStrings = second.keysAreStrings) :
    Twins true true [] (program.operationFragments first) (program.operationFragments second) := by
  unfold operationFragments
  rw [same]
  dsimp only
  split
  · exact .done
  · have title := ((twin_gap 2).append (twin_banner first.depth second.depth
      "Binary Operator Stubs")).append (twin_gap 2)
    have items := twin_separated 2 (fun _ => []) _ _ program.operations fun operation =>
      operation.twins second.keysAreStrings first.depth second.depth
    have none : (program.operations.flatMap fun _ => ([] : List (String × String))) = [] := by
      simp
    rw [none] at items
    exact title.append items

theorem definition_twins (same : first.keysAreStrings = second.keysAreStrings) :
    Twins true true (pairs first.access second.access (program.methods.flatMap Method.terms))
      (program.definitionFragments first) (program.definitionFragments second) := by
  have whole := ((program.function_twins first second).append
    (program.state_twins first second)).append (program.operation_twins first second same)
  rw [List.append_nil, ← GlobalAccess.pairs_append, ← List.flatMap_append, ← List.append_assoc]
    at whole
  exact whole

end

/-- A program in two texts. All definitions behind the globals are written alike, and so is each
method and each operation by itself; the constructors set the globals alike. -/
structure WrittenInBoth (wrapped hosted : Settings) : Prop where
  definitions : WrittenAlike
    (pairs .field .container (program.methods.flatMap Method.terms))
    (program.definitionFragments wrapped) (program.definitionFragments hosted)
  methods : ∀ method ∈ program.methods, WrittenAlike (pairs .field .container method.terms)
    (method.fragments .field wrapped.depth) (method.fragments .container hosted.depth)
  operations : ∀ operation ∈ program.operations,
    untabbed true (Fragment.emitted (operation.fragments wrapped.keysAreStrings wrapped.depth)) =
      untabbed true (Fragment.emitted (operation.fragments hosted.keysAreStrings hosted.depth))
  globals : WrittenAlike (program.globals.flatMap GlobalField.pairs)
    (program.globals.flatMap (GlobalField.assignment .field "GV_" (wrapped.depth + 1)))
    (program.globals.flatMap (GlobalField.assignment .inside "this.V_" (hosted.depth + 2)))

theorem written_in_both {wrapped hosted : Settings} (wraps : wrapped.wrapsInClass = true)
    (open_ : hosted.wrapsInClass = false) (same : wrapped.keysAreStrings = hosted.keysAreStrings) :
    program.WrittenInBoth wrapped hosted where
  definitions := by
    have twins := program.definition_twins wrapped hosted same
    simp only [Settings.access, wraps, open_, if_true, Bool.false_eq_true, if_false] at twins
    exact twins.written_alike
  methods := by
    intro method _
    exact (method.twins .field .container wrapped.depth hosted.depth).written_alike
  operations := by
    intro operation _
    rw [same]
    obtain ⟨front, reached, _, alike⟩ :=
      (operation.twins hosted.keysAreStrings wrapped.depth hosted.depth).written_alike
    rw [List.prefix_nil.mp reached] at alike
    exact alike.untabbed_eq
  globals := (twin_items _ _ _ program.globals fun global =>
    global.assignment_twins (wrapped.depth + 1) (hosted.depth + 2)).written_alike

end Program

/-- A source that is accepted is compiled to one and the same program in both modes, if the settings
differ in nothing but what surrounds the code, and the program is written alike. -/
theorem accepted_modes_agree {library : Library} {source : String} {wrapped hosted : Settings}
    (accepted : Accepted library source) (wraps : wrapped.wrapsInClass = true)
    (open_ : hosted.wrapsInClass = false) (valid : wrapped.validate = .ok ())
    (validHosted : hosted.validate = .ok ()) (same : wrapped.bare = hosted.bare) (date : String) :
    let script := (checkSource library source).value
    let program := script.program library wrapped
    program = script.program library hosted ∧
      (∀ settings ∈ [wrapped, hosted],
        compile library settings date script = .ofFragments (program.fragments settings date) ∧
          program.WrittenIn settings (program.fragments settings date) ∧
          program.definitionFragments settings <:+: program.fragments settings date) ∧
      program.WrittenInBoth wrapped hosted := by
  intro script program
  have one : program = script.program library hosted := by
    rw [← script.program_bare library hosted, ← same, script.program_bare library wrapped]
  have keys : wrapped.bare.keysAreStrings = hosted.bare.keysAreStrings := by rw [same]
  refine ⟨one, ?_, program.written_in_both wraps open_ keys⟩
  intro settings member
  have compiled : compile library settings date script =
      .ofFragments (program.fragments settings date) := by
    rcases List.mem_pair.mp member with rfl | rfl
    · exact (accepted_program_closed valid accepted date).1
    · rw [one]
      exact (accepted_program_closed validHosted accepted date).1
  exact ⟨compiled, program.written settings date, program.definitions_written settings date⟩

/-- A script with globals, a function, a handler and operations, in a class of some namespace and in
that of its host. -/
theorem small_modes_agree :
    let source := "integer a = 2; integer b = a; " ++
      "integer twice(integer n) \x7b if (n) \x7b n += b; \x7d return n * a; \x7d " ++
      "default \x7b state_entry() \x7b twice(1); \x7d \x7d"
    let wrapped : Settings :=
      { className? := some "Wrapped", enclosingNamespace? := some "Scripts", header := "// text" }
    let hosted : Settings := { wrapsInClass := false }
    let script := (checkSource .small source).value
    let program := script.program .small wrapped
    Accepted .small source ∧ wrapped.validate = .ok () ∧ hosted.validate = .ok () ∧
      program.globals.map GlobalField.pairs =
        [[("GV_a = ", "this.V_a = ")], [("GV_b = ", "this.V_b = "), ("this.GV_a", "this.V_a")]] ∧
      (program.methods.map fun method => pairs .field .container method.terms) =
        [[("this.GV_b", "this.Globals.V_b"), ("this.GV_a", "this.Globals.V_a")], []] ∧
      program = script.program .small hosted ∧ program.WrittenInBoth wrapped hosted := by
  intro source wrapped hosted script program
  have valid : wrapped.validate = .ok () := by decide +kernel
  have validHosted : hosted.validate = .ok () := by decide +kernel
  have spelled : source = String.ofList _ :=
    (congrArg (· ++ _) String.ofList_append.symm).trans String.ofList_append.symm
  have facts : Accepted .small source ∧
      program.globals.map GlobalField.pairs =
        [[("GV_a = ", "this.V_a = ")], [("GV_b = ", "this.V_b = "), ("this.GV_a", "this.V_a")]] ∧
      (program.methods.map fun method => pairs .field .container method.terms) =
        [[("this.GV_b", "this.Globals.V_b"), ("this.GV_a", "this.Globals.V_a")], []] := by
    simp only [Accepted, program, script, check_source_spelled spelled]
    decide +kernel
  obtain ⟨accepted, globals, methods⟩ := facts
  obtain ⟨one, _, agree⟩ := accepted_modes_agree accepted rfl rfl valid validHosted rfl ""
  exact ⟨accepted, valid, validHosted, globals, methods, one, agree⟩

end Lsl
