import Lsl.Proofs.Checking.Faultless
import Lsl.Proofs.Checking.Script
import Lsl.Proofs.Parsing.Fidelity

/-!
Scripts that are checked without an error are ready. Nothing in them is at fault, and whatever a name
in a body stands for is declared: a local variable directly in a scope of that body, everything else
in the script or the library. What is known of the nodes of checked expressions holds all over a
script that is checked without an error.
-/

set_option autoImplicit false

namespace Lsl

/-- What is declared around the expressions of a body, given what is declared outside of it. -/
def Surroundings.inside (outside : Surroundings) (parameters : ParameterList) (body : CodeScope) :
    Surroundings :=
  { outside with
    parameters := parameters.members.map (·.start)
    locals := body.declarations }

/-- What a script declares for all of its bodies. -/
def Script.outside (script : Script) : Surroundings where
  globals := script.globals.map (·.start)
  functions := script.functions.map (·.start)

section

variable (library : Library) (outside : Surroundings)

structure GlobalDecl.Ready (global : GlobalDecl) : Prop where
  whole : global.faulty = false
  value : ∀ value ∈ global.decl.initializer, ∀ node ∈ value.nodes, node.Ready library outside

structure FunctionDecl.Ready (decl : FunctionDecl) : Prop where
  whole : decl.hasErrors = false
  body : ∀ stmt ∈ Stmt.listStatements decl.body,
    stmt.Ready library (outside.inside decl.parameters decl.ownScope)

structure HandlerDecl.Ready (decl : HandlerDecl) : Prop where
  whole : decl.hasErrors = false
  body : ∀ stmt ∈ Stmt.listStatements decl.body,
    stmt.Ready library (outside.inside decl.parameters decl.ownScope)

structure StateDecl.Ready (decl : StateDecl) : Prop where
  whole : decl.hasErrors = false
  handlers : ∀ handler ∈ decl.handlers, handler.Ready library outside

end

structure GlobalDecl.Holds (fine : Expr → Prop) (global : GlobalDecl) : Prop where
  whole : global.faulty = false
  value : ∀ value ∈ global.decl.initializer, ∀ node ∈ value.nodes, fine node

section

variable (fine : ParameterList → CodeScope → Expr → Prop)

structure FunctionDecl.Holds (decl : FunctionDecl) : Prop where
  whole : decl.hasErrors = false
  body : ∀ stmt ∈ Stmt.listStatements decl.body, stmt.Holds (fine decl.parameters decl.ownScope)

structure HandlerDecl.Holds (decl : HandlerDecl) : Prop where
  whole : decl.hasErrors = false
  body : ∀ stmt ∈ Stmt.listStatements decl.body, stmt.Holds (fine decl.parameters decl.ownScope)

structure StateDecl.Holds (decl : StateDecl) : Prop where
  whole : decl.hasErrors = false
  handlers : ∀ handler ∈ decl.handlers, handler.Holds fine

end

def GlobalDecl.visible (global : GlobalDecl) : Visible :=
  ⟨global.decl.name, global.decl.type, .global global.start⟩

/-- A script that nothing is wrong with. -/
structure Script.Ready (library : Library) (script : Script) : Prop where
  whole : script.hasErrors = false
  globals : ∀ global ∈ script.globals, global.Ready library script.outside
  functions : ∀ decl ∈ script.functions, decl.Ready library script.outside
  states : ∀ state ∈ script.allStates, state.Ready library script.outside
  started : script.defaultState.isSome = true

/-- A script that is not at fault, all nodes of whose bodies are fine, and those of a global early
enough for what is seen of the globals in front of it. -/
structure Script.Holds (early : List Visible → Expr → Prop)
    (fine : ParameterList → CodeScope → Expr → Prop) (script : Script) : Prop where
  whole : script.hasErrors = false
  globals : ∀ front global back, script.globals = front ++ global :: back →
    global.Holds (early (front.map GlobalDecl.visible))
  functions : ∀ decl ∈ script.functions, decl.Holds fine
  states : ∀ state ∈ script.allStates, state.Holds fine
  started : script.defaultState.isSome = true

theorem check_each_value {α : Type} (check : α → Checked α) (list : List α) :
    (checkEach check list).value = list.map fun value => (check value).value := by
  induction list with
  | nil => rfl
  | cons value list induction =>
      simp only [checkEach, Checked.value_bind, Checked.value_pure, induction, List.map_cons]

theorem declare_functions_silent {library : Library} {declared : List FunctionHeader}
    {list : List FunctionDecl} (silent : (declareFunctions library declared list).Silent) :
    (declareFunctions library declared list).value =
      (list, declared ++ list.map FunctionDecl.header) := by
  induction list generalizing declared with
  | nil => simp [declareFunctions]
  | cons decl list induction =>
      simp only [declareFunctions, Checked.silent_bind, Checked.value_bind,
        Checked.value_pure] at silent ⊢
      have free := report_at_silent (by grind [Problem.severity]) silent.1
      simp only [free, reportAt, Checked.value_pure, Bool.false_eq_true, if_false, Bool.or_false]
        at silent ⊢
      rw [induction silent.2.1]
      simp

theorem declare_states_silent {declared : List (String × Nat)} {list : List StateDecl}
    (silent : (declareStates declared list).Silent) :
    (declareStates declared list).value.1 = list := by
  induction list generalizing declared with
  | nil => rfl
  | cons decl list induction =>
      simp only [declareStates, declareState, Checked.silent_bind, Checked.value_bind,
        Checked.value_pure] at silent ⊢
      have free := report_at_silent (by grind [Problem.severity]) silent.1.1
      simp only [free, reportAt, Checked.value_pure, Bool.false_eq_true, if_false, Bool.or_false]
        at silent ⊢
      rw [induction silent.2.1]

theorem holds_global_initializer {view : View} {fine : Expr → Prop} {type : ValueType}
    {name : String} {value : Expr} (yields : view.Yields fine) (sound : value.Sound)
    (silent : (checkGlobalInitializer view type name value).Silent) :
    ∀ node ∈ (checkGlobalInitializer view type name value).value.nodes, fine node := by
  simp only [checkGlobalInitializer, Checked.silent_bind, Checked.value_bind] at silent ⊢
  obtain ⟨fits, written⟩ := silent
  split at written
  · rename_i constant
    rw [if_pos constant]
    exact holds_initializer yields sound fits
  · simp [Problem.severity] at written

theorem check_globals_visible (view : View) (list : List GlobalDecl) :
    (checkGlobals view list).value.1.map GlobalDecl.visible = list.map GlobalDecl.visible := by
  induction list generalizing view with
  | nil => rfl
  | cons global list induction =>
      simp only [checkGlobals, Checked.value_bind, Checked.value_pure, List.map_cons, induction]
      rfl

theorem check_globals_holds (view : View) (early : List Visible → Expr → Prop)
    {list : List GlobalDecl}
    (yields : ∀ front back, list = front ++ back →
      View.Yields { view with globals := view.globals ++ front.map GlobalDecl.visible }
        (early (view.globals ++ front.map GlobalDecl.visible)))
    (sound : ∀ global ∈ list, global.faulty = false ∧
      ∀ value ∈ global.decl.initializer, value.Sound)
    (silent : (checkGlobals view list).Silent) :
    (checkGlobals view list).value.2 = view.globals ++ list.map GlobalDecl.visible ∧
      ∀ front global back, (checkGlobals view list).value.1 = front ++ global :: back →
        global.Holds (early (view.globals ++ front.map GlobalDecl.visible)) := by
  induction list generalizing view with
  | nil => simp [checkGlobals]
  | cons first list induction =>
      simp only [checkGlobals, Checked.silent_bind, Checked.value_bind,
        Checked.value_pure] at silent ⊢
      obtain ⟨initial, reported, others, _⟩ := silent
      have free := report_at_silent (by grind [Problem.severity]) reported
      simp only [free, reportAt, Checked.value_pure, Bool.false_eq_true, if_false, Bool.or_false]
        at others ⊢
      have own := sound first List.mem_cons_self
      obtain ⟨seen, holds⟩ := induction _
        (fun front back split => by
          have later := yields (first :: front) back (by rw [split, List.cons_append])
          rwa [List.map_cons, List.append_cons] at later)
        (fun global member => sound global (List.mem_cons_of_mem _ member)) others
      refine ⟨?_, ?_⟩
      · refine seen.trans ?_
        simp [GlobalDecl.visible]
      · intro front global back split
        cases front with
        | nil =>
            obtain ⟨rfl, rfl⟩ := List.cons.inj split
            refine ⟨own.1, ?_⟩
            intro value given
            have here := yields [] (first :: list) rfl
            rw [List.map_nil, List.append_nil] at here ⊢
            exact holds_option (fun value given => holds_global_initializer here
              (own.2 value given)) initial value (Option.mem_toList.mpr given)
        | cons head front =>
            obtain ⟨rfl, rest⟩ := List.cons.inj split
            have later := holds front global back rest
            rw [List.append_assoc] at later
            exact later

/-- What is known of the nodes of a body that is checked without an error. -/
def Outlook.Admits (outlook : Outlook) (fine : ParameterList → CodeScope → Expr → Prop) : Prop :=
  ∀ owner parameters scope body, Stmt.AllSound body →
    (checkBody outlook owner parameters scope body).Silent →
    (checkBody outlook owner parameters scope body).value.1 = parameters ∧
      ∀ stmt ∈ Stmt.listStatements (checkBody outlook owner parameters scope body).value.2,
        stmt.Holds
          (fine parameters ⟨scope, (checkBody outlook owner parameters scope body).value.2⟩)

section

variable {outlook : Outlook} {fine : ParameterList → CodeScope → Expr → Prop}
  (admits : outlook.Admits fine)
  (whole : ∀ parameters code node, fine parameters code node → node.info.faulty = false)

include admits whole

theorem check_function_holds {decl : FunctionDecl} (sound : decl.Sound)
    (silent : (checkFunction outlook decl).Silent) :
    (checkFunction outlook decl).value.Holds fine ∧
      (checkFunction outlook decl).value.header = decl.header := by
  simp only [checkFunction, Checked.silent_bind] at silent
  obtain ⟨checked, complete, _⟩ := silent
  have free := report_at_silent (by grind [Problem.severity]) complete
  obtain ⟨same, holds⟩ := admits _ _ _ _ sound.body checked
  have clean := sound.clean
  simp only [FunctionDecl.hasErrors, Bool.or_eq_false_iff] at clean
  refine ⟨⟨?_, ?_⟩, ?_⟩
  · simp only [checkFunction, Checked.value_bind, Checked.value_pure, free, reportAt,
      FunctionDecl.hasErrors, same, clean, Stmt.clean_of_holds (whole _ _) holds, Bool.or_false]
  · simp only [checkFunction, Checked.value_bind, Checked.value_pure, FunctionDecl.ownScope, same]
    exact holds
  · simp only [checkFunction, Checked.value_bind, Checked.value_pure, FunctionDecl.header,
      FunctionDecl.start, same]

theorem check_handler_holds {decl : HandlerDecl} (clean : decl.hasErrors = false)
    (sound : Stmt.AllSound decl.body) (silent : (checkHandler outlook decl).Silent) :
    (checkHandler outlook decl).value.Holds fine := by
  simp only [checkHandler, Checked.silent_bind] at silent
  obtain ⟨fits, checked, _⟩ := silent
  have free := report_at_silent (by grind [Problem.severity, handlerProblem?]) fits
  obtain ⟨same, holds⟩ := admits _ _ _ _ sound checked
  simp only [HandlerDecl.hasErrors, Bool.or_eq_false_iff] at clean
  refine ⟨?_, ?_⟩
  · simp only [checkHandler, Checked.value_bind, Checked.value_pure, free, reportAt,
      HandlerDecl.hasErrors, same, clean, Stmt.clean_of_holds (whole _ _) holds, Bool.or_false]
  · simp only [checkHandler, Checked.value_bind, Checked.value_pure, HandlerDecl.ownScope, same]
    exact holds

theorem check_members_holds {state : String} {seen : List String} {members : List StateMember}
    (clean : ∀ member ∈ members, member.hasErrors = false)
    (bodies : ∀ body ∈ members.filterMap StateMember.body?, Stmt.AllSound body.body)
    (silent : (checkMembers outlook state seen members).Silent) :
    ∀ member ∈ (checkMembers outlook state seen members).value,
      ∃ decl, member = .handler decl ∧ decl.Holds fine := by
  induction members generalizing seen with
  | nil => simp [checkMembers]
  | cons member members induction =>
      have own := clean member List.mem_cons_self
      have others := fun found inside => clean found (List.mem_cons_of_mem member inside)
      cases member with
      | broken span => cases own
      | handler decl =>
          unfold checkMembers at silent ⊢
          split at silent
          · simp [report, Checked.Silent, Diagnostic.isError, Problem.severity] at silent
          · rename_i first
            simp only [Checked.silent_bind] at silent
            rw [if_neg first]
            intro found inside
            rcases List.mem_cons.mp inside with rfl | inside
            · exact ⟨_, rfl, check_handler_holds admits whole own
                (bodies ⟨decl.scope, decl.body⟩ List.mem_cons_self) silent.1⟩
            · exact induction others
                (fun body member => bodies body (List.mem_cons_of_mem _ member))
                silent.2.1 found inside

theorem check_state_holds {decl : StateDecl} (sound : decl.Sound)
    (silent : (checkState outlook decl).Silent) :
    (checkState outlook decl).value.Holds fine := by
  have clean := sound.clean
  simp only [StateDecl.hasErrors, Bool.or_eq_false_iff, List.any_eq_false, Bool.not_eq_true]
    at clean
  unfold checkState at silent ⊢
  split at silent
  · simp [report, Checked.Silent, Diagnostic.isError, Problem.severity] at silent
  · rename_i some
    simp only [Checked.silent_bind] at silent
    have holds := check_members_holds admits whole clean.2 sound.bodies silent.1
    rw [if_neg some]
    refine ⟨?_, ?_⟩
    · simp only [Checked.value_bind, Checked.value_pure, StateDecl.hasErrors, clean.1,
        Bool.false_or, List.any_eq_false, Bool.not_eq_true]
      intro member inside
      obtain ⟨decl, rfl, fine⟩ := holds member inside
      exact fine.whole
    · intro handler inside
      obtain ⟨member, memberInside, found⟩ := List.mem_filterMap.mp inside
      obtain ⟨decl, rfl, fine⟩ := holds member memberInside
      obtain rfl : decl = handler := Option.some.inj found
      exact fine

end

namespace Script.Sound

variable {script : Script} (sound : script.Sound)

include sound

theorem global {global : GlobalDecl} (member : global ∈ script.globals) :
    global.faulty = false ∧ ∀ value ∈ global.decl.initializer, value.Sound := by
  have clean := (Script.has_errors_iff.mp sound.clean).2.1 global member
  simp only [GlobalDecl.hasErrors, Variable.hasErrors, Bool.or_eq_false_iff,
    Stmt.option_has_errors_iff] at clean
  exact ⟨clean.1, fun value given => ⟨sound.globals global member value given,
    clean.2 value (Option.mem_toList.mpr given)⟩⟩

theorem function {decl : FunctionDecl} (member : decl ∈ script.functions) : decl.Sound where
  clean := (Script.has_errors_iff.mp sound.clean).2.2.1 decl member
  body := sound.bodies decl.ownScope (List.mem_append_left _ (List.mem_map_of_mem member))

theorem state {decl : StateDecl} (member : decl ∈ script.allStates) : decl.Sound where
  clean := (Script.has_errors_iff.mp sound.clean).2.2.2.1 decl member
  bodies := fun body inside => sound.bodies body
    (List.mem_append_right _ (List.mem_flatMap.mpr ⟨decl, member, inside⟩))

end Script.Sound

/-- What the bodies of a script see if nothing is wrong with its declarations. -/
def Script.outlook (library : Library) (script : Script) : Outlook where
  view :=
    { library
      functions := script.functions.map FunctionDecl.header
      globals := script.globals.map GlobalDecl.visible }
  states :=
    (declareStates (declareStates [] script.defaultState.toList).value.2 script.states).value.2

theorem check_declarations_value (library : Library) (script : Script) :
    (checkDeclarations library script).value =
      let declared := (declareFunctions library [] script.functions).value
      let first := (declareStates [] script.defaultState.toList).value
      let others := (declareStates first.2 script.states).value
      let globals := (checkGlobals
        { library
          functions := declared.2
          forthcoming := script.globals.map (·.decl.name) } script.globals).value
      let outlook : Outlook :=
        ⟨{ library, functions := declared.2, globals := globals.2 }, others.2⟩
      Script.recorded
        { script with
          globals := globals.1
          functions := (checkEach (checkFunction outlook) declared.1).value
          defaultState := (checkDefaultState outlook script.span first.1.head?).value
          states := (checkEach (checkState outlook) others.1).value } :=
  rfl

/-- What an initializer sees if nothing is wrong with the declarations around it. -/
def Script.dawn (library : Library) (script : Script) (seen : List Visible) : View where
  library
  functions := script.functions.map FunctionDecl.header
  globals := seen
  forthcoming := script.globals.map (·.decl.name)

/-- What is known of the nodes of a script that is checked without an error, and that they are not at
fault. -/
structure Script.Grants (library : Library) (script : Script)
    (early : List Visible → Expr → Prop)
    (fine : ParameterList → CodeScope → Expr → Prop) : Prop where
  yields : ∀ seen ⊆ script.globals.map GlobalDecl.visible,
    (script.dawn library seen).Yields (early seen)
  admits : (script.outlook library).Admits fine
  before : ∀ seen node, early seen node → node.info.faulty = false
  inside : ∀ parameters code node, fine parameters code node → node.info.faulty = false

section

variable {library : Library} {script : Script} {early : List Visible → Expr → Prop}
  {fine : ParameterList → CodeScope → Expr → Prop} (grants : script.Grants library early fine)
  (sound : script.Sound)

include grants sound

theorem check_declarations_silent (silent : (checkDeclarations library script).Silent) :
    ∃ globals, globals.map GlobalDecl.visible = script.globals.map GlobalDecl.visible ∧
      (∀ front global back, globals = front ++ global :: back →
        global.Holds (early (front.map GlobalDecl.visible))) ∧
      (checkEach (checkFunction (script.outlook library)) script.functions).Silent ∧
      (checkDefaultState (script.outlook library) script.span script.defaultState).Silent ∧
      (checkEach (checkState (script.outlook library)) script.states).Silent ∧
      (checkDeclarations library script).value = Script.recorded
        { script with
          globals
          functions := (checkEach (checkFunction (script.outlook library)) script.functions).value
          defaultState :=
            (checkDefaultState (script.outlook library) script.span script.defaultState).value
          states := (checkEach (checkState (script.outlook library)) script.states).value } := by
  simp only [checkDeclarations, Checked.silent_bind] at silent
  obtain ⟨functions, first, states, globals, bodies, start, rest, _⟩ := silent
  have headers := declare_functions_silent functions
  have initial := declare_states_silent first
  have others := declare_states_silent states
  have single : script.defaultState.toList.head? = script.defaultState := by
    cases script.defaultState <;> rfl
  simp only [headers, initial, others, single, List.nil_append] at globals bodies start rest
  obtain ⟨seen, holds⟩ := check_globals_holds (script.dawn library []) early
    (fun front back split => grants.yields _ (by
      rw [split, List.map_append]
      exact List.subset_append_left _ _))
    (fun _ member => sound.global member) globals
  have same := check_globals_visible (script.dawn library []) script.globals
  simp only [Script.dawn, List.nil_append] at seen holds same
  simp only [seen] at bodies start rest
  unfold Script.outlook
  refine ⟨_, same, holds, bodies, start, rest, ?_⟩
  simp only [check_declarations_value, headers, initial, others, single, seen, List.nil_append]

/-- What is known holds all over a script that is checked without an error, and its functions and
globals are seen as they were. -/
theorem check_declarations_holds (silent : (checkDeclarations library script).Silent) :
    (checkDeclarations library script).value.Holds early fine ∧
      (checkDeclarations library script).value.globals.map GlobalDecl.visible =
        script.globals.map GlobalDecl.visible ∧
      (checkDeclarations library script).value.functions.map FunctionDecl.header =
        script.functions.map FunctionDecl.header := by
  obtain ⟨globals, seen, holds, functions, start, states, form⟩ :=
    check_declarations_silent grants sound silent
  obtain ⟨first, initial⟩ : ∃ first, script.defaultState = some first := by
    cases initial : script.defaultState with
    | some first => exact ⟨first, rfl⟩
    | none =>
        rw [initial] at start
        simp [checkDefaultState, report, Checked.Silent, Diagnostic.isError,
          Problem.severity] at start
  simp only [initial, checkDefaultState, Checked.silent_bind, Checked.value_bind,
    Checked.value_pure] at start form
  have functionsHold : ∀ decl ∈ (checkDeclarations library script).value.functions,
      decl.Holds fine := by
    rw [form]
    intro decl member
    obtain ⟨source, inside, silent, rfl⟩ := check_each_mem functions member
    exact (check_function_holds grants.admits grants.inside (sound.function inside) silent).1
  have statesHold : ∀ state ∈ (checkDeclarations library script).value.allStates,
      state.Holds fine := by
    rw [form]
    intro state member
    rcases List.mem_append.mp member with member | member
    · obtain rfl := List.mem_singleton.mp member
      exact check_state_holds grants.admits grants.inside
        (sound.state (by simp [Script.allStates, initial])) start.1
    · obtain ⟨source, inside, silent, rfl⟩ := check_each_mem states member
      exact check_state_holds grants.admits grants.inside
        (sound.state (List.mem_append_right _ inside)) silent
  have clean := Script.has_errors_iff.mp sound.clean
  refine ⟨⟨Script.has_errors_iff.mpr ⟨?_, ?_, fun decl member => (functionsHold decl member).whole,
    fun state member => (statesHold state member).whole, ?_⟩, ?_, functionsHold, statesHold, ?_⟩,
    ?_, ?_⟩
  · rw [form]
    exact clean.1
  · rw [form]
    intro global member
    obtain ⟨front, back, split⟩ := List.append_of_mem member
    have fine := holds front global back split
    simp only [GlobalDecl.hasErrors, Variable.hasErrors, Bool.or_eq_false_iff, fine.whole,
      Stmt.option_has_errors_iff, true_and]
    intro value given
    exact Expr.clean_of_nodes fun node inside =>
      grants.before _ node (fine.value value (Option.mem_toList.mp given) node inside)
  · rw [form]
    exact clean.2.2.2.2
  · rw [form]
    exact holds
  · rw [form]
    rfl
  · rw [form]
    exact seen
  · rw [form]
    simp only [Script.recorded, check_each_value, List.map_map]
    refine List.map_congr_left fun decl member => ?_
    exact (check_function_holds grants.admits grants.inside (sound.function member)
      (check_each_silent functions member)).2

end

theorem Script.grants_ready {library : Library} (wellFormed : library.WellFormed)
    (script : Script) :
    script.Grants library (fun _ node => node.Ready library script.outside)
      fun parameters code node => node.Ready library (script.outside.inside parameters code) where
  yields := by
    intro seen inside expr sound silent
    have within : (script.dawn library seen).Within script.outside := by
      refine ⟨wellFormed, ?_, ?_⟩
      · intro found member
        obtain ⟨global, declared, rfl⟩ := List.mem_map.mp (inside member)
        exact List.mem_map_of_mem declared
      · intro header member
        obtain ⟨decl, declared, rfl⟩ := List.mem_map.mp member
        exact List.mem_map_of_mem declared
    exact Expr.ready_check within sound silent
  admits := by
    intro owner parameters scope body sound silent
    refine check_body_holds (Frame.Suits.passes library _) ?_ sound silent
    intro labels
    have declarations :=
      check_body_declarations (script.outlook library) owner parameters scope body
    refine ⟨rfl, ⟨wellFormed, ?_, ?_⟩, ?_, ?_⟩
    · intro found member
      rcases List.mem_append.mp member with member | member
      · obtain ⟨decl, declared, rfl⟩ := List.mem_map.mp member
        exact List.mem_map_of_mem declared
      · obtain ⟨global, declared, rfl⟩ := List.mem_map.mp member
        exact List.mem_map_of_mem declared
    · intro header member
      obtain ⟨decl, declared, rfl⟩ := List.mem_map.mp member
      exact List.mem_map_of_mem declared
    · intro stmt member start declares
      simp only [Surroundings.inside, declarations]
      exact CodeScope.held_subset List.mem_cons_self
        (CodeScope.mem_held.mpr ⟨⟨stmt, member, declares⟩, rfl⟩)
    · intro inner member
      simp only [Surroundings.inside, declarations]
      exact CodeScope.held_subset (List.mem_cons_of_mem _ member)
  before := fun _ _ ready => ready.whole
  inside := fun _ _ _ ready => ready.whole

theorem check_declarations_ready {library : Library} {script : Script}
    (wellFormed : library.WellFormed) (sound : script.Sound)
    (silent : (checkDeclarations library script).Silent) :
    (checkDeclarations library script).value.Ready library := by
  obtain ⟨holds, globals, functions⟩ :=
    check_declarations_holds (script.grants_ready wellFormed) sound silent
  -- The declarations start where they did, so the script is the same from the outside.
  have same : (checkDeclarations library script).value.outside = script.outside := by
    have globalStarts := congrArg (List.map fun found => found.binding.declaration?.getD 0) globals
    have functionStarts := congrArg (List.map FunctionHeader.start) functions
    rw [List.map_map, List.map_map] at globalStarts functionStarts
    rw [Script.outside, Script.outside, Surroundings.mk.injEq]
    exact ⟨globalStarts, functionStarts, rfl, rfl⟩
  refine ⟨holds.whole, ?_, ?_, ?_, holds.started⟩
  · rw [same]
    intro global member
    obtain ⟨front, back, split⟩ := List.append_of_mem member
    have fine := holds.globals front global back split
    exact ⟨fine.whole, fine.value⟩
  · rw [same]
    intro decl member
    have fine := holds.functions decl member
    exact ⟨fine.whole, fun stmt inside => (fine.body stmt inside).ready⟩
  · rw [same]
    intro state member
    have fine := holds.states state member
    exact ⟨fine.whole, fun handler inside => ⟨(fine.handlers handler inside).whole,
      fun stmt within => ((fine.handlers handler inside).body stmt within).ready⟩⟩

end Lsl
