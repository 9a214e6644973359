import Lsl.Proofs.Checking.Soundness
import Lsl.Proofs.Checking.Validator

/-!
The run of the validator over the bodies of a script and over the script. No body is at hand between
two bodies, and the tables are those that the declarations of the script have filled, so that every
body is validated as it is checked by itself.
-/

set_option autoImplicit false

namespace Lsl

theorem Use.contains_declaration (uses : List Use) (start : Nat) :
    (uses.map (·.declaration)).contains start = isUsed uses start := by
  induction uses with
  | nil => rfl
  | cons use uses induction =>
      rw [List.map_cons, List.contains_cons, induction]
      exact congrArg (· || _) (decide_eq_decide.mpr eq_comm)

section Bodies

/-- The state in front of the first statement of a body. -/
def Validator.atBody (state : Validator) (owner : Owner) (labels : Checked (List LabelPlace))
    (members : Checked (List ParameterDecl × List Visible)) : Validator :=
  { state with
    environments := { visible := members.value.2 } :: state.environments
    labels := labels.value
    context := .body owner
    reports := state.reports ++ labels.reports ++ members.reports }

/-- The state once a body has been left. -/
def Validator.cleared (state : Validator) : Validator :=
  { state with environments := [], labels := [], context := .none }

def deadCode (regions : List Span) : Checked Unit := regions.forM (report · .deadCode)

/-- Before a body the labels and parameters are collected, behind it the dead code is found. -/
theorem validate_body_run (state : Validator) (owner : Owner) (parameters : ParameterList)
    (scope : ScopeInfo) (body : List Stmt) :
    (validateBody owner parameters scope body).run state =
      let members := declareParameters state.library [] parameters.members
      let inside := (inScope (validateStmts [scope.id] body)).run
        (state.atBody owner (declareLabels [] (Stmt.listLabels scope.id body)) members)
      let settled := Stmt.listSettle (inside.2.uses.map (·.declaration)) {} inside.1
      (({ parameters with members := members.value.1 }, settled.1),
        { inside.2.cleared with
          reports := inside.2.reports ++ (deadCode settled.2).reports }) :=
  rfl

/-- What a body can name that is validated in this state. -/
def Validator.outlook (state : Validator) : Outlook where
  view := { library := state.library, functions := state.functions, globals := state.globals }
  states := state.states

/-- No body is at hand. -/
structure Validator.Idle (state : Validator) : Prop where
  environments : state.environments = []
  labels : state.labels = []
  context : state.context = .none

theorem Validator.Idle.cleared {state : Validator} (idle : state.Idle) : state.cleared = state := by
  rw [Validator.cleared, ← idle.environments, ← idle.labels, ← idle.context]

/-- No body is at hand, and none but these uses were met. -/
structure Validator.Between (final : List Use) (outlook : Outlook) (state : Validator) : Prop where
  idle : state.Idle
  seen : state.uses ⊆ final
  outlook : state.outlook = outlook

theorem Validator.Between.told {final : List Use} {outlook : Outlook} {state : Validator}
    (between : state.Between final outlook) (reports : List Diagnostic) {uses : List Use}
    (made : uses ⊆ final) : (state.told reports uses).Between final outlook :=
  ⟨⟨between.idle.environments, between.idle.labels, between.idle.context⟩,
    List.append_subset.mpr ⟨between.seen, made⟩, between.outlook⟩

/-- A body without an error in its text, of whose declarations no other part of the script knows. -/
structure Inspection.Foreseen (final : List Use) (inspection : Inspection) : Prop where
  clean : Stmt.listHasErrors inspection.scope.body = false
  known : inspection.body.Known final
  labels : ∀ referent ∈ Stmt.listReferents inspection.body.body,
    Use.isUsed final referent.start = true →
      Use.isUsed (Stmt.listUses inspection.body.body) referent.start = true

namespace Inspection

variable (inspection : Inspection)

/-- What marks do not change is the same before the body is settled. -/
theorem body_eq {α : Type} (view : List Stmt → α)
    (blind : ∀ body, view (Stmt.listMarked .live body) = view body) :
    view inspection.body.body = view inspection.unsettled :=
  Stmt.settled_eq view blind inspection.unsettled

theorem uses_body : Stmt.listUses inspection.body.body = Stmt.listUses inspection.unsettled :=
  inspection.body_eq Stmt.listUses (Stmt.list_uses_marked .live)

theorem closes_marked (final : List Use) (scope : CodeScope) :
    (scope.marked .live).Closes final ↔ scope.Closes final := by
  simp only [CodeScope.Closes, CodeScope.marked, Stmt.declared_marked, Stmt.list_uses_marked]

namespace Foreseen

variable {final : List Use} {inspection} (foreseen : inspection.Foreseen final)

include foreseen

theorem made : Stmt.listUses inspection.unsettled ⊆ final :=
  inspection.uses_body ▸ foreseen.known.uses

theorem unsettled : CodeScope.Known final ⟨inspection.scope.info, inspection.unsettled⟩ := by
  refine ⟨foreseen.made, ?_⟩
  have same := inspection.body_eq
    (fun body => ∀ inner ∈ CodeScope.scopes ⟨inspection.scope.info, body⟩, inner.Closes final)
    fun body => by
      simp only [CodeScope.scopes, List.forall_mem_cons, Stmt.list_scopes_marked,
        List.forall_mem_map, closes_marked]
      exact congrArg (· ∧ _) (propext (closes_marked final ⟨inspection.scope.info, body⟩))
  exact same ▸ foreseen.known.closes

/-- Jumps elsewhere make no difference to what is dead in the body. -/
theorem settles {state : Validator} (seen : state.uses ⊆ final) :
    Stmt.listSettle ((state.uses ++ Stmt.listUses inspection.unsettled).map (·.declaration)) {}
      inspection.unsettled = settleBody inspection.unsettled := by
  refine Stmt.list_settle_congr (fun stmt inside => ?_) {}
  cases stmt with
  | label info name =>
      have declared : ⟨.label, info.span.start.offset⟩ ∈
          Stmt.listReferents inspection.body.body := by
        rw [inspection.body_eq _ (Stmt.list_referents_marked .live)]
        exact List.mem_filterMap.mpr ⟨_, inside, rfl⟩
      rw [Stmt.isTarget, Stmt.isTarget, Use.contains_declaration, Use.contains_declaration,
        Bool.eq_iff_iff, Use.is_used_iff]
      constructor
      · rintro ⟨use, made, same⟩
        rw [← inspection.uses_body]
        refine foreseen.labels _ declared (Use.is_used_iff.mpr ⟨use, ?_, same⟩)
        exact List.append_subset.mpr ⟨seen, foreseen.made⟩ made
      · intro used
        obtain ⟨use, made, same⟩ := Use.is_used_iff.mp used
        exact ⟨use, List.mem_append_right _ made, same⟩
  | _ => rfl

/-- A body is validated as it is checked, and nothing of it is left behind. -/
theorem validate_body_runs {state : Validator} (between : state.Between final inspection.outlook) :
    Runs (validateBody inspection.owner inspection.parameters inspection.scope.info
      inspection.scope.body) state inspection.result (Stmt.listUses inspection.body.body) := by
  have known := foreseen.unsettled
  have settles := foreseen.settles between.seen
  have cleared := between.idle.cleared
  rw [inspection.uses_body]
  obtain ⟨outlook, owner, parameters, ⟨info, body⟩⟩ := inspection
  obtain ⟨⟨environments, -, -⟩, seen, rfl⟩ := between
  let labels := declareLabels [] (Stmt.listLabels info.id body)
  let members := declareParameters state.library [] parameters.members
  let view : View := { state.outlook.view with locals := members.value.2 }
  let frame : Frame := ⟨view, state.states, labels.value, owner, []⟩
  let checked := checkStmts (frame.enter info) body >>= closeScope
  have shown : frame.Shown final (state.atBody owner labels members) := by
    refine ⟨seen, ?_, rfl, rfl, rfl, List.cons_ne_nil _ _⟩
    simp [Validator.view, Validator.atBody, frame, view, Validator.outlook, environments]
  have whole : CodeScope.RunsChecked final ⟨info, body⟩ :=
    CodeScope.runs_checked (validate_stmts_run foreseen.clean)
  have inside : (inScope (validateStmts [info.id] body)).run (state.atBody owner labels members) =
      (checked.value, (state.atBody owner labels members).told checked.reports
        (Stmt.listUses checked.value)) := whole frame _ shown known
  have behind (reports : List Diagnostic) :
      { ((state.atBody owner labels members).told checked.reports
          (Stmt.listUses checked.value)).cleared with reports } =
        { state.cleared with
          uses := state.uses ++ Stmt.listUses checked.value
          reports } := rfl
  rw [Runs, validate_body_run]
  dsimp only
  rw [inside]
  dsimp only
  have told : checkBody state.outlook owner parameters info body =
      ⟨({ parameters with members := members.value.1 }, (settleBody checked.value).1),
        labels.reports ++ (members.reports ++ (checked.reports ++
          ((deadCode (settleBody checked.value).2).reports ++ [])))⟩ := rfl
  have settled : Stmt.listSettle
      ((state.uses ++ Stmt.listUses checked.value).map (·.declaration)) {} checked.value =
        settleBody checked.value := settles
  have uses : ((state.atBody owner labels members).told checked.reports
      (Stmt.listUses checked.value)).uses = state.uses ++ Stmt.listUses checked.value := rfl
  rw [behind, cleared, uses, settled, Inspection.result, told]
  simp [Validator.told, Validator.atBody]
  rfl

end Foreseen

end Inspection

variable {final : List Use} {outlook : Outlook} {state : Validator}

theorem validate_function_runs {decl : FunctionDecl} (between : state.Between final outlook)
    (foreseen : (Inspection.ofFunction outlook decl).Foreseen final) :
    Runs (validateFunction decl) state (checkFunction outlook decl)
      (Stmt.listUses (checkFunction outlook decl).value.body) :=
  ((foreseen.validate_body_runs between).bind (Runs.of_tell _ _).then_pure).congr
    (List.append_nil _)

theorem validate_handler_runs {decl : HandlerDecl} (between : state.Between final outlook)
    (foreseen : (Inspection.ofHandler outlook decl).Foreseen final) :
    Runs (validateHandler decl) state (checkHandler outlook decl)
      (Stmt.listUses (checkHandler outlook decl).value.body) := by
  have library : state.library = outlook.view.library := between.outlook ▸ rfl
  have behind (reports : List Diagnostic) :=
    foreseen.validate_body_runs (between.told reports (List.nil_subset _))
  unfold validateHandler
  refine .of_get ?_
  rw [library]
  exact (Runs.of_tell _ _).bind (behind _).then_pure

/-- The handlers of a state are validated one by one; the uses in a second handler of an event, which
is not looked into, are none. -/
theorem validate_members_run {seen : List String} {members : List StateMember} (name : String)
    (between : state.Between final outlook)
    (unbound : ∀ decl ∈ members.filterMap StateMember.handler?, Stmt.listUses decl.body = [])
    (foreseen : ∀ decl ∈ HandlerDecl.firsts seen (members.filterMap StateMember.handler?),
      (Inspection.ofHandler outlook decl).Foreseen final) :
    Runs (validateMembers name seen members) state (checkMembers outlook name seen members)
      ((checkMembers outlook name seen members).value.flatMap StateMember.uses) := by
  induction members generalizing seen state with
  | nil => exact .of_pure []
  | cons member members induction =>
      cases member with
      | broken span =>
          rw [validateMembers, checkMembers]
          exact (induction between unbound foreseen).then_pure
      | handler decl =>
          obtain ⟨plain, others⟩ := List.forall_mem_cons.mp unbound
          have read : (.handler decl :: members).filterMap StateMember.handler? =
              decl :: members.filterMap StateMember.handler? := rfl
          rw [read] at foreseen
          unfold validateMembers checkMembers
          by_cases known : seen.contains decl.name = true
          · rw [HandlerDecl.firsts_seen known] at foreseen
            have told (reports : List Diagnostic) :=
              induction (between.told reports (List.nil_subset _)) others foreseen
            rw [if_pos known, if_pos known]
            refine ((Runs.of_tell _ _).bind (told _).then_pure).congr ?_
            have none : StateMember.uses (.handler { decl with faulty := true }) = [] := plain
            rw [Checked.value_bind, Checked.value_bind, Checked.value_pure, List.flatMap_cons, none]
          · rw [HandlerDecl.firsts_fresh known] at foreseen
            obtain ⟨first, later⟩ := List.forall_mem_cons.mp foreseen
            have own := validate_handler_runs between first
            have behind := between.told (checkHandler outlook decl).reports first.known.uses
            rw [if_neg known, if_neg known]
            exact own.bind (induction behind others later).then_pure

/-- The handlers of a state are as they were read, and what is looked into is foreseen. -/
structure StateDecl.Foreseen (final : List Use) (outlook : Outlook) (decl : StateDecl) : Prop where
  unbound : ∀ handler ∈ decl.handlers, Stmt.listUses handler.body = []
  inspections : ∀ inspection ∈ decl.inspections outlook, inspection.Foreseen final

theorem validate_state_runs {decl : StateDecl} (between : state.Between final outlook)
    (foreseen : decl.Foreseen final outlook) :
    Runs (validateState decl) state (checkState outlook decl)
      (checkState outlook decl).value.uses := by
  unfold validateState checkState
  by_cases empty : decl.members.isEmpty = true
  · have none : StateDecl.uses { decl with faulty := true } = [] := by
      rw [StateDecl.uses, List.isEmpty_iff.mp empty, List.flatMap_nil]
    rw [if_pos empty, if_pos empty]
    exact (Runs.of_tell _ _).then_pure.congr none.symm
  · have inside := validate_members_run decl.name between foreseen.unbound fun handler first =>
      foreseen.inspections _ (List.mem_map_of_mem first)
    rw [if_neg empty, if_neg empty]
    exact inside.then_pure

theorem validate_default_runs {initial : Option StateDecl} (span : Span)
    (between : state.Between final outlook)
    (foreseen : ∀ decl ∈ initial, decl.Foreseen final outlook) :
    Runs (validateDefaultState span initial) state (checkDefaultState outlook span initial)
      ((checkDefaultState outlook span initial).value.toList.flatMap StateDecl.uses) := by
  cases initial with
  | none => exact (Runs.of_tell _ _).then_pure
  | some decl =>
      have own := validate_state_runs between (foreseen decl rfl)
      exact own.then_pure.congr (List.flatMap_singleton ..).symm

theorem Runs.map_m {α : Type} {validate : α → Validation α} {check : α → Checked α}
    {uses : α → List Use} {list : List α} (between : state.Between final outlook)
    (each : ∀ value ∈ list, ∀ state : Validator, state.Between final outlook →
      Runs (validate value) state (check value) (uses (check value).value))
    (made : (checkEach check list).value.flatMap uses ⊆ final) :
    Runs (list.mapM validate) state (checkEach check list)
      ((checkEach check list).value.flatMap uses) := by
  induction list generalizing state with
  | nil => exact .of_pure []
  | cons value list induction =>
      obtain ⟨first, others⟩ := List.forall_mem_cons.mp each
      obtain ⟨own, rest⟩ := List.append_subset.mp made
      have behind := between.told (check value).reports own
      rw [List.mapM_cons, checkEach]
      exact (first state between).bind (induction behind others rest).then_pure

end Bodies

section Scripts

theorem validate_global_initializer_runs (type : ValueType) (name : String) (initializer : Expr)
    (state : Validator) :
    Runs (validateGlobalInitializer type name initializer) state
      (checkGlobalInitializer state.view type name initializer)
      (checkGlobalInitializer state.view type name initializer).value.uses :=
  (validate_initializer_runs type initializer state).then_tell.congr
    (Expr.uses_ite_blame ..).symm

def GlobalDecl.uses (global : GlobalDecl) : List Use := Expr.optionUses global.decl.initializer

def GlobalDecl.problem? (view : View) (global : GlobalDecl) : Option Problem :=
  if (view.library.constant? global.decl.name).isSome then
    some (.libraryConstantRedefined global.decl.name)
  else if view.globals.any (·.name == global.decl.name) then some (.repeatedVariable global.decl.name)
  else none

def GlobalDecl.refused (view : View) (global : GlobalDecl) : Checked Bool :=
  reportAt global.span (global.problem? view)

def GlobalDecl.known (view : View) (global : GlobalDecl) : List Visible :=
  if (global.refused view).value then view.globals else view.globals ++ [global.visible]

variable {view : View} {state : Validator}

theorem check_globals_cons (view : View) (global : GlobalDecl) (rest : List GlobalDecl) :
    let initial := checkOption (checkGlobalInitializer view global.decl.type global.decl.name)
      global.decl.initializer
    let others := checkGlobals { view with globals := global.known view } rest
    checkGlobals view (global :: rest) =
      ⟨({ global with
            decl := { global.decl with initializer := initial.value }
            faulty := global.faulty || (global.refused view).value } :: others.value.1,
          others.value.2),
        initial.reports ++ ((global.refused view).reports ++ (others.reports ++ []))⟩ := by
  have behind : { view with globals := global.known view } =
      if (global.refused view).value then view
      else { view with globals := view.globals ++ [global.visible] } := by
    unfold GlobalDecl.known
    split <;> rfl
  rw [behind]
  rfl

theorem validate_global_run (global : GlobalDecl) (context : state.context = .none)
    (seen : ({ state with context := .globalInitializer } : Validator).view = view) :
    let initial := checkOption (checkGlobalInitializer view global.decl.type global.decl.name)
      global.decl.initializer
    (validateGlobal global).run state =
      ({ global with
          decl := { global.decl with initializer := initial.value }
          faulty := global.faulty || (global.refused view).value },
        ({ state with globals := global.known view } : Validator).told
          (initial.reports ++ (global.refused view).reports) (Expr.optionUses initial.value)) := by
  intro initial
  have given := validate_option_runs Expr.uses
    (fun value => validate_global_initializer_runs global.decl.type global.decl.name value
      { state with context := .globalInitializer }) global.decl.initializer
  have steps : (validateGlobal global).run state =
      let first := (validateOption (validateGlobalInitializer global.decl.type global.decl.name)
        global.decl.initializer).run { state with context := .globalInitializer }
      let refused := global.refused first.2.view
      let behind : Validator :=
        { first.2 with context := .none, reports := first.2.reports ++ refused.reports }
      ({ global with
          decl := { global.decl with initializer := first.1 }
          faulty := global.faulty || refused.value },
        if refused.value then behind
        else { behind with globals := behind.globals ++ [global.visible] }) := rfl
  rw [seen, Expr.option_uses_eq, Runs] at given
  rw [steps, given]
  dsimp only
  rw [Validator.view_told, seen]
  refine Prod.ext rfl ?_
  obtain ⟨_, _, _, _, _, _, _, _, _, _⟩ := state
  subst context seen
  unfold GlobalDecl.known Validator.told
  split <;> rw [← List.append_assoc] <;> rfl

/-- Globals are validated while no body is at hand. Each adds itself to those that can be named. -/
theorem validate_globals_run (globals : List GlobalDecl)
    (outside : state.environments = []) (context : state.context = .none)
    (seen : ({ state with context := .globalInitializer } : Validator).view = view) :
    (globals.mapM validateGlobal).run state =
      ((checkGlobals view globals).value.1,
        ({ state with globals := (checkGlobals view globals).value.2 } : Validator).told
          (checkGlobals view globals).reports
          ((checkGlobals view globals).value.1.flatMap GlobalDecl.uses)) := by
  induction globals generalizing view state with
  | nil =>
      subst seen
      exact (Runs.of_pure [] : Runs _ state _ _)
  | cons global rest induction =>
      have own := validate_global_run global context seen
      have steps : ((global :: rest).mapM validateGlobal).run state =
          let one := (validateGlobal global).run state
          let more := (rest.mapM validateGlobal).run one.2
          (one.1 :: more.1, more.2) := by
        rw [List.mapM_cons]
        rfl
      have later := @induction { view with globals := global.known view }
        ((validateGlobal global).run state).2 (by rw [own]; exact outside)
        (by rw [own]; exact context) (by rw [own]; subst seen; rfl)
      have back (reports : List Diagnostic) (uses : List Use) (known others : List Visible) :
          { (({ state with globals := known } : Validator).told reports uses) with
              globals := others } =
            ({ state with globals := others } : Validator).told reports uses := rfl
      rw [steps]
      dsimp only
      rw [later, own, check_globals_cons]
      dsimp only
      rw [back, Validator.told_told, List.append_nil, List.append_assoc]
      rfl

section

variable (library : Library) (script : Script)

def Script.declaredState : Validator where
  library := library
  functions := (script.listedFunctions library).2
  states := script.listedStates.2
  globals := (script.listedGlobals library).2
  globalNames := script.globals.map (·.decl.name)
  uses := (script.listedGlobals library).1.flatMap GlobalDecl.uses
  reports :=
    let view : View :=
      { library
        functions := (script.listedFunctions library).2
        forthcoming := script.globals.map (·.decl.name) }
    let first := declareStates [] script.defaultState.toList
    (declareFunctions library [] script.functions).reports ++ first.reports ++
      (declareStates first.value.2 script.states).reports ++ (checkGlobals view script.globals).reports

/-- The default state and the others, each marked if it is refused. -/
def Script.startingState : Option StateDecl :=
  (declareStates [] script.defaultState.toList).value.1.head?

def Script.otherStates : List StateDecl :=
  (declareStates (declareStates [] script.defaultState.toList).value.2 script.states).value.1

theorem Script.listed_states_split :
    script.listedStates.1 = script.startingState.toList ++ script.otherStates := by
  rw [startingState, declare_first_state]
  rfl

theorem validate_head_run : (validateHead script).run { library } =
    (((script.listedFunctions library).1, (declareStates [] script.defaultState.toList).value.1,
      script.otherStates, (script.listedGlobals library).1), script.declaredState library) := by
  let functions := declareFunctions library [] script.functions
  let first := declareStates [] script.defaultState.toList
  let others := declareStates first.value.2 script.states
  let before : Validator :=
    { library
      functions := functions.value.2
      states := others.value.2
      globalNames := script.globals.map (·.decl.name)
      reports := functions.reports ++ first.reports ++ others.reports }
  have steps : (validateHead script).run { library } =
      let globals := (script.globals.mapM validateGlobal).run before
      ((functions.value.1, first.value.1, others.value.1, globals.1), globals.2) := rfl
  rw [steps, validate_globals_run script.globals rfl rfl rfl]
  rfl

theorem validate_script_run : (validateScript script).run { library } =
    let functions := ((script.listedFunctions library).1.mapM validateFunction).run
      (script.declaredState library)
    let start := (validateDefaultState script.span script.startingState).run functions.2
    let states := (script.otherStates.mapM validateState).run start.2
    ({ script with
        globals := (script.listedGlobals library).1
        functions := functions.1
        defaultState := start.1
        states := states.1
        uses := states.2.uses }, states.2) := by
  have steps : (validateScript script).run { library } =
      let head := (validateHead script).run { library }
      let functions := (head.1.1.mapM validateFunction).run head.2
      let start := (validateDefaultState script.span head.1.2.1.head?).run functions.2
      let states := (head.1.2.2.1.mapM validateState).run start.2
      ({ script with
          globals := head.1.2.2.2
          functions := functions.1
          defaultState := start.1
          states := states.1
          uses := states.2.uses }, states.2) := rfl
  rw [steps, validate_head_run]
  rfl

/-- No body of the script is at fault, and nothing outside of a body knows what is in it. -/
structure Script.Foreseen (library : Library) (script : Script) : Prop where
  unbound : ∀ decl ∈ script.listedStates.1, ∀ handler ∈ decl.handlers,
    Stmt.listUses handler.body = []
  inspections : ∀ inspection ∈ script.inspections library,
    inspection.Foreseen (checkDeclarations library script).value.boundUses

namespace Script

def checkedFunctions : Checked (List FunctionDecl) :=
  checkEach (checkFunction (script.prospect library)) (script.listedFunctions library).1

def checkedStart : Checked (Option StateDecl) :=
  checkDefaultState (script.prospect library) script.span script.startingState

def checkedStates : Checked (List StateDecl) :=
  checkEach (checkState (script.prospect library)) script.otherStates

def behindFunctions : Validator :=
  (script.declaredState library).told (script.checkedFunctions library).reports
    ((script.checkedFunctions library).value.flatMap (Stmt.listUses ·.body))

def behindStart : Validator :=
  (script.behindFunctions library).told (script.checkedStart library).reports
    ((script.checkedStart library).value.toList.flatMap StateDecl.uses)

theorem uses_made : let final := (checkDeclarations library script).value.boundUses
    ((script.declaredState library).uses ⊆ final ∧
      (script.checkedFunctions library).value.flatMap (Stmt.listUses ·.body) ⊆ final) ∧
      (script.checkedStart library).value.toList.flatMap StateDecl.uses ⊆ final ∧
      (script.checkedStates library).value.flatMap StateDecl.uses ⊆ final := by
  intro final
  have all : final ⊆ final := List.Subset.refl final
  obtain ⟨front, states⟩ := List.append_subset.mp all
  obtain ⟨front, start⟩ := List.append_subset.mp front
  exact ⟨List.append_subset.mp front, start, states⟩

theorem reports_checked : (checkDeclarations library script).reports =
    (script.declaredState library).reports ++ (script.checkedFunctions library).reports ++
      (script.checkedStart library).reports ++ (script.checkedStates library).reports := by
  change _ ++ (_ ++ (_ ++ (_ ++ (_ ++ (_ ++ (_ ++ [])))))) = (_ ++ _ ++ _ ++ _) ++ _ ++ _ ++ _
  simp only [List.append_assoc, List.append_nil]
  rfl

end Script

namespace Script.Foreseen

variable {library script} (foreseen : script.Foreseen library)

include foreseen

theorem function {decl : FunctionDecl} (listed : decl ∈ (script.listedFunctions library).1) :
    (Inspection.ofFunction (script.prospect library) decl).Foreseen
      (checkDeclarations library script).value.boundUses :=
  foreseen.inspections _ (List.mem_append_left _ (List.mem_map_of_mem listed))

theorem listed {decl : StateDecl} (listed : decl ∈ script.listedStates.1) :
    decl.Foreseen (checkDeclarations library script).value.boundUses (script.prospect library) :=
  ⟨foreseen.unbound decl listed, fun inspection member => foreseen.inspections inspection
    (List.mem_append_right _ (List.mem_flatMap.mpr ⟨decl, listed, member⟩))⟩

theorem starting {decl : StateDecl} (starts : decl ∈ script.startingState) :
    decl.Foreseen (checkDeclarations library script).value.boundUses (script.prospect library) := by
  refine foreseen.listed ?_
  rw [script.listed_states_split]
  exact List.mem_append_left _ (Option.mem_toList.mpr starts)

theorem other {decl : StateDecl} (listed : decl ∈ script.otherStates) :
    decl.Foreseen (checkDeclarations library script).value.boundUses (script.prospect library) := by
  refine foreseen.listed ?_
  rw [script.listed_states_split]
  exact List.mem_append_right _ listed

omit foreseen in
theorem between_functions : (script.declaredState library).Between
    (checkDeclarations library script).value.boundUses (script.prospect library) :=
  ⟨⟨rfl, rfl, rfl⟩, (script.uses_made library).1.1, rfl⟩

omit foreseen in
theorem between_start : (script.behindFunctions library).Between
    (checkDeclarations library script).value.boundUses (script.prospect library) :=
  between_functions.told _ (script.uses_made library).1.2

omit foreseen in
theorem between_states : (script.behindStart library).Between
    (checkDeclarations library script).value.boundUses (script.prospect library) :=
  between_start.told _ (script.uses_made library).2.1

theorem functions_run : Runs ((script.listedFunctions library).1.mapM validateFunction)
    (script.declaredState library) (script.checkedFunctions library)
    ((script.checkedFunctions library).value.flatMap (Stmt.listUses ·.body)) :=
  .map_m between_functions
    (fun _ listed _ between => validate_function_runs between (foreseen.function listed))
    (script.uses_made library).1.2

theorem start_run : Runs (validateDefaultState script.span script.startingState)
    (script.behindFunctions library) (script.checkedStart library)
    ((script.checkedStart library).value.toList.flatMap StateDecl.uses) :=
  validate_default_runs script.span between_start fun _ starts => foreseen.starting starts

theorem states_run : Runs (script.otherStates.mapM validateState) (script.behindStart library)
    (script.checkedStates library)
    ((script.checkedStates library).value.flatMap StateDecl.uses) :=
  .map_m between_states
    (fun _ listed _ between => validate_state_runs between (foreseen.other listed))
    (script.uses_made library).2.2

theorem validate_eq : validate library script =
    ⟨(checkDeclarations library script).value.concluded
        (checkDeclarations library script).reports,
      (checkDeclarations library script).reports⟩ := by
  have functions : ((script.listedFunctions library).1.mapM validateFunction).run
      (script.declaredState library) =
        ((script.checkedFunctions library).value, script.behindFunctions library) :=
    foreseen.functions_run
  have start : (validateDefaultState script.span script.startingState).run
      (script.behindFunctions library) =
        ((script.checkedStart library).value, script.behindStart library) :=
    foreseen.start_run
  have states : (script.otherStates.mapM validateState).run (script.behindStart library) =
      ((script.checkedStates library).value, (script.behindStart library).told
        (script.checkedStates library).reports
        ((script.checkedStates library).value.flatMap StateDecl.uses)) :=
    foreseen.states_run
  rw [validate, validate_script_run, script.reports_checked]
  dsimp only
  rw [functions]
  dsimp only
  rw [start]
  dsimp only
  rw [states]
  rfl

end Script.Foreseen

end

end Scripts

end Lsl
