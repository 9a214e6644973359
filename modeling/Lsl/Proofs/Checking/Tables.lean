import Lsl.Proofs.Checking.Soundness

/-!
The tables that bodies are checked with. Functions, states and globals are entered before any body
is looked into, and no body adds to them or takes from them, whatever is wrong with it: what is
reported of a script is what is reported of its declarations, and then of one body after the other.
-/

set_option autoImplicit false

namespace Lsl

section Entering

variable {α β : Type} (name : α → String) (refused : String → Bool)

/-- Enters a declaration, unless it is refused or not the first one of its name. -/
def enter (table : List α) (found : α) : List α :=
  if refused (name found) || table.any (name · == name found) then table else table ++ [found]

theorem enter_map {named : β → String} {move : α → β}
    (same : ∀ found, named (move found) = name found) (table list : List α) :
    (list.foldl (enter name refused) table).map move =
      (list.map move).foldl (enter named refused) (table.map move) := by
  induction list generalizing table with
  | nil => rfl
  | cons found list induction =>
      have moved : (enter name refused table found).map move =
          enter named refused (table.map move) (move found) := by
        have known : (table.map move).any (named · == named (move found)) =
            table.any (name · == name found) := by
          simp only [List.any_map, Function.comp_def, same]
        unfold enter
        rw [known, same]
        split
        · rfl
        · exact List.map_append
      rw [List.foldl_cons, induction, moved]
      rfl

end Entering

/-- The name and the place of a state. -/
def StateDecl.entry (decl : StateDecl) : String × Nat := (decl.name, decl.start)

theorem report_at_value (span : Span) (problem? : Option Problem) :
    (reportAt span problem?).value = problem?.isSome := by
  cases problem? <;> rfl

section

variable (library : Library)

theorem declare_functions_table (declared : List FunctionHeader) (list : List FunctionDecl) :
    (declareFunctions library declared list).value.2 =
      (list.map FunctionDecl.header).foldl (enter (·.name) library.hasFunction) declared := by
  induction list generalizing declared with
  | nil => rfl
  | cons decl list induction =>
      simp only [declareFunctions, Checked.value_bind, Checked.value_pure, induction,
        report_at_value, List.map_cons, List.foldl_cons]
      refine congrArg (List.foldl _ · _) ?_
      unfold enter
      change _ = if library.hasFunction decl.name || declared.any (·.name == decl.name)
        then _ else _
      cases library.hasFunction decl.name <;> cases declared.any (·.name == decl.name) <;> rfl

theorem declare_states_table (declared : List (String × Nat)) (list : List StateDecl) :
    (declareStates declared list).value.2 =
      (list.map StateDecl.entry).foldl (enter Prod.fst fun _ => false) declared := by
  induction list generalizing declared with
  | nil => rfl
  | cons decl list induction =>
      have known : (declared.lookup decl.name).isSome =
          declared.any (·.1 == decl.name) := by
        induction declared with
        | nil => rfl
        | cons entry declared inner =>
            obtain ⟨name, start⟩ := entry
            rw [List.lookup_cons, List.any_cons, ← inner, Bool.beq_comm]
            cases name == decl.name <;> rfl
      simp only [declareStates, declareState, Checked.value_bind, Checked.value_pure, induction,
        report_at_value, List.map_cons, List.foldl_cons, known]
      refine congrArg (List.foldl _ · _) ?_
      unfold enter
      change _ = if false || declared.any (·.1 == decl.name) then _ else _
      cases declared.any (·.1 == decl.name) <;> rfl

theorem check_globals_table (view : View) (list : List GlobalDecl) :
    (checkGlobals view list).value.2 =
      (list.map GlobalDecl.visible).foldl
        (enter (·.name) fun name => (view.library.constant? name).isSome) view.globals := by
  induction list generalizing view with
  | nil => rfl
  | cons global list induction =>
      simp only [checkGlobals, Checked.value_bind, Checked.value_pure, report_at_value,
        List.map_cons, List.foldl_cons]
      change _ = List.foldl _ (if (view.library.constant? global.decl.name).isSome ||
        view.globals.any (·.name == global.decl.name) then _ else _) _
      cases (view.library.constant? global.decl.name).isSome <;>
        cases view.globals.any (·.name == global.decl.name) <;> exact induction _

end

/-- What every body of a script is checked with. -/
def Script.tables (library : Library) (script : Script) : Outlook where
  view :=
    { library
      functions := (script.functions.map FunctionDecl.header).foldl
        (enter (·.name) library.hasFunction) []
      globals := (script.globals.map GlobalDecl.visible).foldl
        (enter (·.name) fun name => (library.constant? name).isSome) [] }
  states := (script.allStates.map StateDecl.entry).foldl (enter Prod.fst fun _ => false) []

section

variable (outlook : Outlook)

def memberReports (state : String) (seen : List String) : List StateMember → List (List Diagnostic)
  | [] => []
  | .broken _ :: rest => memberReports state seen rest
  | .handler decl :: rest =>
    if seen.contains decl.name then
      [⟨.repeatedHandler decl.name state, decl.span⟩] :: memberReports state seen rest
    else (checkHandler outlook decl).reports :: memberReports state (decl.name :: seen) rest

/-- What is reported of a state, handler by handler. -/
def StateDecl.reports (decl : StateDecl) : List (List Diagnostic) :=
  if decl.members.isEmpty then [[⟨.stateWithoutHandlers decl.name, decl.span⟩]]
  else memberReports outlook decl.name [] decl.members

def defaultReports (span : Span) : Option StateDecl → List (List Diagnostic)
  | some decl => decl.reports outlook
  | none => [[⟨.missingDefaultState, .point span.stop⟩]]

theorem check_members_reports (state : String) (seen : List String) (members : List StateMember) :
    (checkMembers outlook state seen members).reports =
      (memberReports outlook state seen members).flatten := by
  induction members generalizing seen with
  | nil => rfl
  | cons member members induction =>
      cases member with
      | broken span =>
          simp only [checkMembers, memberReports, Checked.reports_bind, Checked.reports_pure,
            induction, List.append_nil]
      | handler decl =>
          simp only [checkMembers, memberReports]
          split
          · simp only [Checked.reports_bind, Checked.reports_pure, induction, List.append_nil,
              List.flatten_cons]
            rfl
          · simp only [Checked.reports_bind, Checked.reports_pure, induction, List.append_nil,
              List.flatten_cons]
            rfl

theorem check_state_reports (decl : StateDecl) :
    (checkState outlook decl).reports = (decl.reports outlook).flatten := by
  unfold checkState StateDecl.reports
  split
  · rfl
  · simp only [Checked.reports_bind, Checked.reports_pure, List.append_nil, check_members_reports]

theorem check_default_reports (span : Span) (initial : Option StateDecl) :
    (checkDefaultState outlook span initial).reports =
      (defaultReports outlook span initial).flatten := by
  cases initial with
  | none => rfl
  | some decl => exact (List.append_nil _).trans (check_state_reports outlook decl)

theorem check_each_reports {α : Type} {check : α → Checked α} (list : List α) :
    (checkEach check list).reports = (list.map fun value => (check value).reports).flatten := by
  induction list with
  | nil => rfl
  | cons value list induction =>
      simp only [checkEach, Checked.reports_bind, Checked.reports_pure, induction, List.append_nil,
        List.map_cons, List.flatten_cons]

theorem functions_reports (library : Library) (declared : List FunctionHeader)
    (list : List FunctionDecl) :
    ((declareFunctions library declared list).value.1.map fun decl =>
      (checkFunction outlook decl).reports) =
        list.map fun decl => (checkFunction outlook decl).reports := by
  induction list generalizing declared with
  | nil => rfl
  | cons decl list induction =>
      rw [List.map_cons, ← induction]
      rfl

theorem states_reports (declared : List (String × Nat)) (list : List StateDecl) :
    (declareStates declared list).value.1.flatMap (StateDecl.reports outlook) =
      list.flatMap (StateDecl.reports outlook) := by
  induction list generalizing declared with
  | nil => rfl
  | cons decl list induction =>
      rw [List.flatMap_cons, ← induction]
      rfl

end

namespace Script

variable (library : Library) (script : Script)

/-- What is reported of functions, states and globals before any body is checked. -/
def headReports : List Diagnostic :=
  let functions := declareFunctions library [] script.functions
  let starting := declareStates [] script.defaultState.toList
  let view : View :=
    { library, functions := functions.value.2, forthcoming := script.globals.map (·.decl.name) }
  functions.reports ++ starting.reports ++
    (declareStates starting.value.2 script.states).reports ++
    (checkGlobals view script.globals).reports

def functionReports : List (List Diagnostic) :=
  script.functions.map fun decl => (checkFunction (script.tables library) decl).reports

def stateReports : List (List Diagnostic) :=
  defaultReports (script.tables library) script.span script.defaultState ++
    script.states.flatMap (StateDecl.reports (script.tables library))

/-- The tables stand once all declarations are entered, before the first body is checked. -/
theorem tables_eq :
    let view : View :=
      { library, functions := (declareFunctions library [] script.functions).value.2 }
    let forthcoming := script.globals.map (·.decl.name)
    (⟨{ view with globals := (checkGlobals { view with forthcoming } script.globals).value.2 },
        (declareStates (declareStates [] script.defaultState.toList).value.2
          script.states).value.2⟩ : Outlook) = script.tables library := by
  simp only [declare_functions_table, declare_states_table, check_globals_table, tables, allStates,
    List.map_append, List.foldl_append]

theorem check_declarations_reports :
    (checkDeclarations library script).reports = script.headReports library ++
      (script.functionReports library).flatten ++ (script.stateReports library).flatten := by
  have tables := script.tables_eq library
  have starting : (checkDefaultState (script.tables library) script.span
        (declareStates [] script.defaultState.toList).value.1.head?).reports =
      (defaultReports (script.tables library) script.span script.defaultState).flatten := by
    rw [check_default_reports]
    cases script.defaultState <;> rfl
  have states (list : List StateDecl) :
      (list.map fun decl => (checkState (script.tables library) decl).reports).flatten =
        (list.flatMap (StateDecl.reports (script.tables library))).flatten := by
    simp only [check_state_reports, List.flatMap_def, List.flatten_flatten, List.map_map]
    rfl
  simp only at tables
  simp only [checkDeclarations, Checked.reports_bind, Checked.reports_pure, tables, starting,
    check_each_reports, functions_reports, states, states_reports, headReports, functionReports,
    stateReports, List.flatten_append, List.append_nil, List.append_assoc]

end Script

end Lsl
