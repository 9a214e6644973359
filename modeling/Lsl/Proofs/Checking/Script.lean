import Lsl.Proofs.Checking.Body

/-!
Scripts whose declarations are checked without an error. Every body of theirs is resolved, and every
function and state of theirs comes from one that was read.
-/

set_option autoImplicit false

namespace Lsl

/-- A library with a single event, enough for scripts with a handler. -/
def Library.minimal : Library := { events := [⟨⟨"state_entry", []⟩, {}⟩] }

theorem check_each_silent {α : Type} {check : α → Checked α} {list : List α} {value : α}
    (silent : (checkEach check list).Silent) (member : value ∈ list) : (check value).Silent := by
  induction list with
  | nil => cases member
  | cons first list induction =>
      simp only [checkEach, Checked.silent_bind] at silent
      rcases List.mem_cons.mp member with rfl | member
      · exact silent.1
      · exact induction silent.2.1 member

theorem check_each_mem {α : Type} {check : α → Checked α} {list : List α} {value : α}
    (silent : (checkEach check list).Silent) (member : value ∈ (checkEach check list).value) :
    ∃ source ∈ list, (check source).Silent ∧ value = (check source).value := by
  induction list with
  | nil => simp [checkEach] at member
  | cons first list induction =>
      simp only [checkEach, Checked.silent_bind] at silent
      rcases List.mem_cons.mp member with rfl | member
      · exact ⟨first, List.mem_cons_self, silent.1, rfl⟩
      · obtain ⟨source, inside, checked, same⟩ := induction silent.2.1 member
        exact ⟨source, List.mem_cons_of_mem _ inside, checked, same⟩

theorem declare_functions_mem {library : Library} {declared : List FunctionHeader}
    {list : List FunctionDecl} {decl : FunctionDecl}
    (member : decl ∈ (declareFunctions library declared list).value.1) :
    ∃ source ∈ list, decl.ownScope = source.ownScope := by
  induction list generalizing declared with
  | nil => simp [declareFunctions] at member
  | cons first list induction =>
      rcases List.mem_cons.mp member with rfl | member
      · exact ⟨first, List.mem_cons_self, rfl⟩
      · obtain ⟨source, inside, same⟩ := induction member
        exact ⟨source, List.mem_cons_of_mem _ inside, same⟩

theorem declare_states_mem {declared : List (String × Nat)} {list : List StateDecl}
    {decl : StateDecl} (member : decl ∈ (declareStates declared list).value.1) :
    ∃ source ∈ list, decl.members = source.members := by
  induction list generalizing declared with
  | nil => simp [declareStates] at member
  | cons first list induction =>
      rcases List.mem_cons.mp member with rfl | member
      · exact ⟨first, List.mem_cons_self, rfl⟩
      · obtain ⟨source, inside, same⟩ := induction member
        exact ⟨source, List.mem_cons_of_mem _ inside, same⟩

theorem check_globals_plain {view : View}
    (plain : ∀ found ∈ view.globals, found.binding.local? = none) (list : List GlobalDecl) :
    ∀ found ∈ (checkGlobals view list).value.2, found.binding.local? = none := by
  induction list generalizing view with
  | nil => exact plain
  | cons global list induction =>
      have extended : ∀ faulty : Bool, ∀ found ∈ (if faulty then view else
          { view with
            globals := view.globals ++
              [⟨global.decl.name, global.decl.type, .global global.start⟩] }).globals,
            found.binding.local? = none := by
        intro faulty found member
        split at member
        · exact plain found member
        · rcases List.mem_append.mp member with member | member
          · exact plain found member
          · obtain rfl := List.mem_singleton.mp member
            rfl
      exact induction (extended _)

section

variable {outlook : Outlook} (plain : ∀ found ∈ outlook.view.globals, found.binding.local? = none)

include plain

theorem check_function_resolved {decl : FunctionDecl} (order : decl.ownScope.InOrder)
    (fresh : Stmt.Fresh decl.body) (silent : (checkFunction outlook decl).Silent) :
    (checkFunction outlook decl).value.ownScope.Resolved := by
  simp only [checkFunction, Checked.silent_bind] at silent
  exact check_body_resolved plain order fresh silent.1

theorem check_handler_resolved {decl : HandlerDecl}
    (order : CodeScope.InOrder ⟨decl.scope, decl.body⟩) (fresh : Stmt.Fresh decl.body)
    (silent : (checkHandler outlook decl).Silent) :
    CodeScope.Resolved ⟨(checkHandler outlook decl).value.scope,
      (checkHandler outlook decl).value.body⟩ := by
  simp only [checkHandler, Checked.silent_bind] at silent
  exact check_body_resolved plain order fresh silent.2.1

theorem check_members_resolved {state : String} {seen : List String} {members : List StateMember}
    (read : ∀ body ∈ members.filterMap StateMember.body?, body.InOrder ∧ Stmt.Fresh body.body)
    (silent : (checkMembers outlook state seen members).Silent) :
    ∀ body ∈ (checkMembers outlook state seen members).value.filterMap StateMember.body?,
      body.Resolved := by
  induction members generalizing seen with
  | nil => simp [checkMembers]
  | cons member members induction =>
      cases member with
      | broken span =>
          simp only [checkMembers, Checked.silent_bind] at silent
          exact induction read silent.1
      | handler decl =>
          have own := read ⟨decl.scope, decl.body⟩ List.mem_cons_self
          unfold checkMembers at silent ⊢
          split at silent
          · -- A second handler of one event is an error.
            simp [report, Checked.Silent, Diagnostic.isError, Problem.severity] at silent
          · rename_i first
            simp only [Checked.silent_bind] at silent
            rw [if_neg first]
            intro body inside
            rcases List.mem_cons.mp inside with rfl | inside
            · exact check_handler_resolved plain own.1 own.2 silent.1
            · refine induction ?_ silent.2.1 body inside
              exact fun body inside => read body (List.mem_cons_of_mem _ inside)

theorem check_state_resolved {decl : StateDecl}
    (read : ∀ body ∈ decl.bodies, body.InOrder ∧ Stmt.Fresh body.body)
    (silent : (checkState outlook decl).Silent) :
    ∀ body ∈ (checkState outlook decl).value.bodies, body.Resolved := by
  unfold checkState at silent ⊢
  split at silent
  · simp [report, Checked.Silent, Diagnostic.isError, Problem.severity] at silent
  · rename_i some
    simp only [Checked.silent_bind] at silent
    rw [if_neg some]
    exact check_members_resolved plain read silent.1

end

@[simp] theorem Script.functions_concluded (script : Script) (reports : List Diagnostic) :
    (script.concluded reports).functions = script.functions := rfl

@[simp] theorem Script.bodies_concluded (script : Script) (reports : List Diagnostic) :
    (script.concluded reports).bodies = script.bodies := rfl

section

variable {library : Library} {script : Script}
  (read : ∀ body ∈ script.bodies, body.InOrder ∧ Stmt.Fresh body.body)
  (silent : (checkDeclarations library script).Silent)

include silent

/-- A checked function comes from one that was read, and its check reported no error. -/
theorem check_declarations_function {decl : FunctionDecl}
    (member : decl ∈ (checkDeclarations library script).value.functions) :
    ∃ outlook source, (∀ found ∈ outlook.view.globals, found.binding.local? = none) ∧
      source.ownScope ∈ script.functions.map FunctionDecl.ownScope ∧
      (checkFunction outlook source).Silent ∧ decl = (checkFunction outlook source).value := by
  simp only [checkDeclarations, Checked.silent_bind] at silent
  obtain ⟨_, _, _, _, functions, _⟩ := silent
  obtain ⟨source, inside, checked, same⟩ := check_each_mem functions member
  obtain ⟨origin, originInside, equal⟩ := declare_functions_mem inside
  refine ⟨_, source, check_globals_plain (by simp) script.globals, ?_, checked, same⟩
  rw [equal]
  exact List.mem_map_of_mem originInside

/-- A checked state comes from one that was read, and its check reported no error. -/
theorem check_declarations_state {decl : StateDecl}
    (member : decl ∈ (checkDeclarations library script).value.defaultState.toList ++
      (checkDeclarations library script).value.states) :
    ∃ outlook source, (∀ found ∈ outlook.view.globals, found.binding.local? = none) ∧
      (∃ origin ∈ script.defaultState.toList ++ script.states, source.bodies = origin.bodies) ∧
      (checkState outlook source).Silent ∧ decl = (checkState outlook source).value := by
  simp only [checkDeclarations, Checked.silent_bind] at silent
  obtain ⟨_, _, _, _, _, first, states, _⟩ := silent
  rcases List.mem_append.mp member with member | member
  · simp only [checkDeclarations, Script.recorded, Checked.value_bind, Checked.value_pure] at member
    cases found : (declareStates [] script.defaultState.toList).value.1.head? with
    | none =>
        rw [found] at member
        simp [checkDefaultState] at member
    | some source =>
        rw [found] at member first
        simp only [checkDefaultState, Checked.silent_bind, Checked.value_bind, Checked.value_pure,
          Option.toList_some, List.mem_singleton] at member first
        obtain ⟨origin, inside, same⟩ := declare_states_mem (List.mem_of_head? found)
        refine ⟨_, source, check_globals_plain (by simp) script.globals,
          ⟨origin, List.mem_append_left _ inside, ?_⟩, first.1, member⟩
        rw [StateDecl.bodies, StateDecl.bodies, same]
  · obtain ⟨source, inside, checked, equal⟩ := check_each_mem states member
    obtain ⟨origin, originInside, same⟩ := declare_states_mem inside
    refine ⟨_, source, check_globals_plain (by simp) script.globals,
      ⟨origin, List.mem_append_right _ originInside, ?_⟩, checked, equal⟩
    rw [StateDecl.bodies, StateDecl.bodies, same]

include read

theorem check_declarations_resolved :
    ∀ body ∈ (checkDeclarations library script).value.bodies, body.Resolved := by
  intro body inside
  rcases List.mem_append.mp inside with inside | inside
  · obtain ⟨decl, member, rfl⟩ := List.mem_map.mp inside
    obtain ⟨outlook, source, plain, own, checked, rfl⟩ :=
      check_declarations_function silent member
    have order := read source.ownScope (List.mem_append_left _ own)
    exact check_function_resolved plain order.1 order.2 checked
  · obtain ⟨decl, member, inside⟩ := List.mem_flatMap.mp inside
    obtain ⟨outlook, source, plain, ⟨origin, own, same⟩, checked, rfl⟩ :=
      check_declarations_state silent member
    refine check_state_resolved plain ?_ checked body inside
    intro body inside
    rw [same] at inside
    exact read body (List.mem_append_right _ (List.mem_flatMap.mpr ⟨origin, own, inside⟩))

end

end Lsl
