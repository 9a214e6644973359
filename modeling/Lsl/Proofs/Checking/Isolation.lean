import Lsl.Proofs.Checking.Inversion
import Lsl.Proofs.Checking.Meeting
import Lsl.Proofs.Checking.Preservation
import Lsl.Proofs.Checking.Spelling
import Lsl.Proofs.Checking.Tables
import Lsl.Proofs.Parsing.Finding

/-!
Bodies are checked apart from each other. If two scripts say the same outside of the body of one
function, then what is reported of every other function and of every handler says the same, whatever
stands in that body.
-/

set_option autoImplicit false

namespace Lsl

section Bare

/-- What a global says, apart from where it says it. -/
def GlobalDecl.bare (global : GlobalDecl) : GlobalDecl :=
  { global with span := default, decl := global.decl.recast .bare }

def FunctionDecl.bare (decl : FunctionDecl) : FunctionDecl :=
  { decl with
    span := default
    parameters := decl.parameters.relocate .nowhere
    scope := decl.scope.recast .bare
    body := Stmt.listRecast .bare decl.body }

/-- A function without its body. -/
def FunctionDecl.head (decl : FunctionDecl) : FunctionDecl :=
  { decl with scope := default, body := [] }

def HandlerDecl.bare (decl : HandlerDecl) : HandlerDecl :=
  { decl with
    span := default
    parameters := decl.parameters.relocate .nowhere
    scope := decl.scope.recast .bare
    body := Stmt.listRecast .bare decl.body }

def StateMember.bare : StateMember → StateMember
  | .handler decl => .handler decl.bare
  | .broken _ => .broken default

def StateDecl.bare (decl : StateDecl) : StateDecl :=
  { decl with span := default, members := decl.members.map StateMember.bare }

/-- What a script says outside of the body of the function with an index. -/
def Script.besides (place : Nat) (script : Script) : Script where
  span := default
  globals := script.globals.map GlobalDecl.bare
  functions := (script.functions.map FunctionDecl.bare).modify place FunctionDecl.head
  defaultState := script.defaultState.map StateDecl.bare
  states := script.states.map StateDecl.bare

/-- Two scripts say the same outside of the body of one function. -/
def Script.AlikeBut (place : Nat) (first second : Script) : Prop :=
  first.besides place = second.besides place

section Alike

variable {place : Nat} {first second : Script} (alike : first.AlikeBut place second)

include alike

theorem Script.AlikeBut.globals :
    first.globals.map GlobalDecl.bare = second.globals.map GlobalDecl.bare :=
  congrArg Script.globals alike

theorem Script.AlikeBut.heads :
    first.functions.map (fun decl => decl.bare.head) =
      second.functions.map fun decl => decl.bare.head := by
  have same := congrArg (fun script => script.functions.map FunctionDecl.head) alike
  have twice (list : List FunctionDecl) : (list.modify place FunctionDecl.head).map
      FunctionDecl.head = list.map FunctionDecl.head := by
    refine List.ext_getElem? fun index => ?_
    rw [List.getElem?_map, List.getElem?_map, List.getElem?_modify]
    cases list[index]? with
    | none => rfl
    | some decl =>
        by_cases met : place = index <;> simp [met, FunctionDecl.head]
  simpa only [besides, twice, List.map_map, Function.comp_def] using same

theorem Script.AlikeBut.others :
    (first.functions.eraseIdx place).map FunctionDecl.bare =
      (second.functions.eraseIdx place).map FunctionDecl.bare := by
  have same := congrArg (fun script => script.functions.eraseIdx place) alike
  simpa only [besides, List.eraseIdx_modify_of_eq, List.eraseIdx_map] using same

theorem Script.AlikeBut.starting :
    first.defaultState.map StateDecl.bare = second.defaultState.map StateDecl.bare :=
  congrArg Script.defaultState alike

theorem Script.AlikeBut.states :
    first.states.map StateDecl.bare = second.states.map StateDecl.bare :=
  congrArg Script.states alike

end Alike

theorem FunctionDecl.routine_bare {decl other : FunctionDecl} (bare : decl.bare = other.bare) :
    decl.routine.relocate .nowhere = other.routine.relocate .nowhere :=
  congrArg (fun decl => (⟨decl.parameters, ⟨decl.scope, decl.body⟩⟩ : Routine)) bare

theorem HandlerDecl.routine_bare {decl other : HandlerDecl} (bare : decl.bare = other.bare) :
    decl.routine.relocate .nowhere = other.routine.relocate .nowhere :=
  congrArg (fun decl => (⟨decl.parameters, ⟨decl.scope, decl.body⟩⟩ : Routine)) bare

theorem ParameterList.types_relocate (relocation : Relocation) (list : ParameterList) :
    (list.relocate relocation).members.map (·.type) = list.members.map (·.type) := by
  rw [relocate, List.map_map]
  rfl

theorem ParameterList.signature_relocate (relocation : Relocation) (list : ParameterList) :
    (list.relocate relocation).signature = list.signature := by
  rw [signature, relocate, List.mapIdx_eq_zipIdx_map, List.zipIdx_map, List.map_map, signature,
    List.mapIdx_eq_zipIdx_map]
  rfl

end Bare

/-- Declarations start at places of their own, and the statements of every body in order. -/
structure Script.Placed (script : Script) : Prop where
  distinct : (script.referents.map (·.start)).Nodup
  ordered : ∀ body ∈ script.bodies, body.InOrder

theorem parse_placed (source : String) : (parse (tokenize source)).1.Placed :=
  ⟨(parse_finds source).1, fun _ inside => (parse_bodies inside).1⟩

namespace Routine

theorem numbering_faithful (around : List Nat) (routine : Routine) :
    (routine.numbering around).Faithful :=
  ⟨number_in_injective _, number_in_injective _⟩

theorem numbering_uniform (around : List Nat) (routine : Routine) :
    (routine.numbering around).Uniform := rfl

theorem alignment_ordered (routine other : Routine) : (routine.alignment other).Ordered :=
  ⟨aligned_strict _ _, rfl⟩

theorem starts_in_nodup {script : Script} (placed : script.Placed) {routine : Routine}
    (member : routine ∈ script.routines) :
    (routine.startsIn (script.headers.map (·.start))).Nodup := by
  have part : routine.referents.Sublist (script.routines.flatMap Routine.referents) := by
    rw [List.flatMap_def]
    exact List.sublist_flatten_of_mem (List.mem_map_of_mem member)
  have distinct := placed.distinct
  rw [Script.referents, List.map_append] at distinct
  exact distinct.sublist ((part.map _).append_left _)

theorem in_order {script : Script} (placed : script.Placed) {routine : Routine}
    (member : routine ∈ script.routines) : routine.scope.InOrder := by
  refine placed.ordered _ ?_
  rw [script.bodies_eq]
  exact List.mem_map_of_mem member

end Routine

section Around

variable (relocation : Relocation)

/-- The functions of a script as they are seen from bodies in new places. -/
theorem headers_rebuilt (list : List FunctionDecl) :
    (list.map FunctionDecl.header).map (FunctionHeader.relocate relocation) =
      List.zipWith (fun head start => { head.header with start })
        (list.map fun decl => decl.bare.head)
        ((list.map FunctionDecl.start).map relocation.outer) := by
  have head (decl : FunctionDecl) : decl.header.relocate relocation =
      { decl.bare.head.header with start := relocation.outer decl.start } := by
    simp only [FunctionDecl.header, FunctionDecl.head, FunctionDecl.bare,
      ParameterList.types_relocate]
    rfl
  rw [List.map_map, List.map_map, ← map_rebuilt]
  exact List.map_congr_left fun decl _ => head decl

theorem visibles_rebuilt (list : List GlobalDecl) :
    (list.map GlobalDecl.visible).map (Visible.relocate relocation) =
      List.zipWith (fun global start => ⟨global.decl.name, global.decl.type, .global start⟩)
        (list.map GlobalDecl.bare) ((list.map GlobalDecl.start).map relocation.outer) := by
  rw [List.map_map, List.map_map, ← map_rebuilt]
  rfl

theorem entries_rebuilt (list : List StateDecl) :
    (list.map StateDecl.entry).map (Prod.map id relocation.outer) =
      List.zipWith (fun state start => (state.name, start)) (list.map StateDecl.bare)
        ((list.map StateDecl.start).map relocation.outer) := by
  rw [List.map_map, List.map_map, ← map_rebuilt]
  rfl

theorem Script.tables_relocate (library : Library) (script : Script) :
    (script.tables library).relocate relocation =
      { view :=
          { library
            functions := ((script.functions.map FunctionDecl.header).map
              (FunctionHeader.relocate relocation)).foldl (enter (·.name) library.hasFunction) []
            globals := ((script.globals.map GlobalDecl.visible).map
              (Visible.relocate relocation)).foldl
                (enter (·.name) fun name => (library.constant? name).isSome) [] }
        states := ((script.allStates.map StateDecl.entry).map
          (Prod.map id relocation.outer)).foldl (enter Prod.fst fun _ => false) [] } := by
  have header (found : FunctionHeader) : (found.relocate relocation).name = found.name := rfl
  have visible (found : Visible) : (found.relocate relocation).name = found.name := rfl
  have entry (found : String × Nat) : (Prod.map id relocation.outer found).1 = found.1 := rfl
  simp only [tables, Outlook.relocate, View.relocate, enter_map _ _ header, enter_map _ _ visible,
    enter_map _ _ entry, List.map_nil]

theorem Script.header_starts (script : Script) :
    script.headers.map (·.start) = script.globals.map GlobalDecl.start ++
      script.functions.map FunctionDecl.start ++ script.allStates.map StateDecl.start := by
  simp only [headers, List.map_append, List.map_map]
  rfl

variable {first second : Script} {place : Nat} (alike : first.AlikeBut place second)

include alike

theorem Script.AlikeBut.all_states :
    first.allStates.map StateDecl.bare = second.allStates.map StateDecl.bare := by
  have starting := congrArg Option.toList alike.starting
  rw [Option.toList_map, Option.toList_map] at starting
  rw [Script.allStates, Script.allStates, List.map_append, List.map_append, starting, alike.states]

theorem Script.AlikeBut.headers : first.headers.length = second.headers.length := by
  have globals := congrArg List.length alike.globals
  have functions := congrArg List.length alike.heads
  have states := congrArg List.length alike.all_states
  simp only [List.length_map] at globals functions states
  simp only [Script.headers, List.length_append, List.length_map, globals, functions, states]

theorem Script.AlikeBut.tables (library : Library) {near other : Relocation}
    (around : (first.headers.map (·.start)).map near.outer =
      (second.headers.map (·.start)).map other.outer) :
    (first.tables library).relocate near = (second.tables library).relocate other := by
  have functions := congrArg List.length alike.heads
  have states := congrArg List.length alike.all_states
  simp only [List.length_map] at functions states
  simp only [Script.header_starts, List.map_append] at around
  obtain ⟨around, entries⟩ := List.append_inj' around (by simpa using states)
  obtain ⟨globals, heads⟩ := List.append_inj' around (by simpa using functions)
  have visibles := (visibles_rebuilt near first.globals).trans
    ((congrArg₂ _ alike.globals globals).trans (visibles_rebuilt other second.globals).symm)
  have headers := (headers_rebuilt near first.functions).trans
    ((congrArg₂ _ alike.heads heads).trans (headers_rebuilt other second.functions).symm)
  have known := (entries_rebuilt near first.allStates).trans
    ((congrArg₂ _ alike.all_states entries).trans (entries_rebuilt other second.allStates).symm)
  rw [Script.tables_relocate, Script.tables_relocate, visibles, headers, known]

end Around

theorem Script.AlikeBut.tables_bare {first second : Script} {place : Nat}
    (alike : first.AlikeBut place second) (library : Library) :
    (first.tables library).relocate .nowhere = (second.tables library).relocate .nowhere :=
  alike.tables library (map_constant 0 (by simpa using alike.headers))

/-- The problems reported, wherever they stand. -/
def problemsOf (reports : List Diagnostic) : List Problem := reports.map (·.problem)

section Runs

theorem problems_of_report_at (span : Span) (problem? : Option Problem) :
    (reportAt span problem?).problems = problem?.toList := by
  cases problem? <;> rfl

theorem check_function_problems (outlook : Outlook) (decl : FunctionDecl) :
    let checked := decl.routine.check outlook (.function decl.name decl.returns)
    (checkFunction outlook decl).problems = checked.problems ++
      if decl.returns == .void || Stmt.anyReturns checked.value.2 then []
      else [.missingReturn decl.name] := by
  intro checked
  have ended := problems_of_report_at decl.span
    (if decl.returns == .void || Stmt.anyReturns checked.value.2 then none
      else some (.missingReturn decl.name))
  simp only [Checked.problems] at ended
  simp only [checkFunction, Checked.problems, Checked.reports_bind, Checked.reports_pure,
    List.append_nil, List.map_append]
  refine congrArg (_ ++ ·) (ended.trans ?_)
  split <;> rfl

theorem check_handler_problems (outlook : Outlook) (decl : HandlerDecl) :
    (checkHandler outlook decl).problems =
      (handlerProblem? outlook.view.library decl).toList ++
        (decl.routine.check outlook (.handler decl.name)).problems := by
  rw [← problems_of_report_at decl.span]
  simp only [checkHandler, Checked.problems, Checked.reports_bind, Checked.reports_pure,
    List.append_nil, List.map_append]
  rfl

theorem handler_problem_bare (library : Library) (decl : HandlerDecl) :
    handlerProblem? library decl.bare = handlerProblem? library decl := by
  have signature : decl.bare.signature = decl.signature := by
    simp only [HandlerDecl.signature, HandlerDecl.bare, ParameterList.signature_relocate]
  rw [handlerProblem?, handlerProblem?, signature]
  rfl

variable {first second : Script} {place : Nat} (alike : first.AlikeBut place second)
  (placed : first.Placed) (placedOther : second.Placed) (library : Library)

include alike placed placedOther

/-- Functions and handlers that say the same in these scripts have the same problems. -/
theorem Routine.check_alike {routine other : Routine} (member : routine ∈ first.routines)
    (memberOther : other ∈ second.routines)
    (bare : routine.relocate .nowhere = other.relocate .nowhere) (owner : Owner) :
    (routine.check (first.tables library) owner).problems =
        (other.check (second.tables library) owner).problems ∧
      Stmt.anyReturns (routine.check (first.tables library) owner).value.2 =
        Stmt.anyReturns (other.check (second.tables library) owner).value.2 := by
  have order := Routine.in_order placed member
  have orderOther := Routine.in_order placedOther memberOther
  have ids : routine.scopeIds.Nodup := order.ids.imp Nat.ne_of_lt
  have idsOther : other.scopeIds.Nodup := orderOther.ids.imp Nat.ne_of_lt
  obtain ⟨around, close⟩ := Routine.numbering_meet bare (by simpa using alike.headers)
    (Routine.starts_in_nodup placed member) (Routine.starts_in_nodup placedOther memberOther)
    ids idsOther
  have aligned := Routine.alignment_meet bare order.starts orderOther.starts ids idsOther
  have outside : (first.headers.map (·.start)).map (routine.alignment other).outer =
      (second.headers.map (·.start)).map (other.alignment routine).outer :=
    map_constant 0 (by simpa using alike.headers)
  exact Routine.check_meet owner (Routine.numbering_faithful _ _) (Routine.numbering_uniform _ _)
    (Routine.numbering_faithful _ _) (Routine.numbering_uniform _ _)
    (Routine.alignment_ordered _ _) (Routine.alignment_ordered _ _)
    (number_in_injective _) (number_in_injective _)
    ⟨alike.tables library around, close⟩ ⟨alike.tables library outside, aligned⟩

theorem check_function_alike {decl other : FunctionDecl} (member : decl ∈ first.functions)
    (memberOther : other ∈ second.functions) (bare : decl.bare = other.bare) :
    (checkFunction (first.tables library) decl).problems =
      (checkFunction (second.tables library) other).problems := by
  have name : decl.name = other.name := (congrArg FunctionDecl.name bare :)
  have result : decl.returns = other.returns := (congrArg FunctionDecl.returns bare :)
  obtain ⟨problems, returns⟩ := Routine.check_alike alike placed placedOther library
    (List.mem_append_left _ (List.mem_map_of_mem member))
    (List.mem_append_left _ (List.mem_map_of_mem memberOther)) (FunctionDecl.routine_bare bare)
    (.function decl.name decl.returns)
  rw [check_function_problems, check_function_problems, problems, returns, name, result]

theorem check_handler_alike {state beside : StateDecl} (inside : state ∈ first.allStates)
    (insideOther : beside ∈ second.allStates) {decl other : HandlerDecl}
    (member : decl ∈ state.handlers) (memberOther : other ∈ beside.handlers)
    (bare : decl.bare = other.bare) :
    (checkHandler (first.tables library) decl).problems =
      (checkHandler (second.tables library) other).problems := by
  have name : decl.name = other.name := (congrArg HandlerDecl.name bare :)
  have routine {script : Script} {state : StateDecl} (inside : state ∈ script.allStates)
      {decl : HandlerDecl} (member : decl ∈ state.handlers) : decl.routine ∈ script.routines :=
    List.mem_append_right _ (List.mem_flatMap.mpr ⟨state, inside, List.mem_map_of_mem member⟩)
  obtain ⟨problems, _⟩ := Routine.check_alike alike placed placedOther library
    (routine inside member) (routine insideOther memberOther) (HandlerDecl.routine_bare bare)
    (.handler decl.name)
  have event : handlerProblem? library decl = handlerProblem? library other := by
    rw [← handler_problem_bare, bare, handler_problem_bare]
  rw [check_handler_problems, check_handler_problems, problems, name]
  exact congrArg (Option.toList · ++ _) event

end Runs

section Reports

theorem map_alike {α β γ : Type} {said : α → β} {given known : α → γ} {list others : List α}
    (each : ∀ value ∈ list, ∀ other ∈ others, said value = said other → given value = known other)
    (same : list.map said = others.map said) : list.map given = others.map known := by
  induction list generalizing others with
  | nil => rw [List.map_eq_nil_iff.mp same.symm, List.map_nil, List.map_nil]
  | cons value list induction =>
      cases others with
      | nil => exact absurd same (List.cons_ne_nil _ _)
      | cons other others =>
          obtain ⟨own, behind⟩ := List.cons.inj same
          have here := each value List.mem_cons_self other List.mem_cons_self own
          have later := induction (fun value member other beside =>
            each value (List.mem_cons_of_mem _ member) other (List.mem_cons_of_mem _ beside)) behind
          rw [List.map_cons, List.map_cons, here, later]

theorem StateDecl.mem_handlers {state : StateDecl} {decl : HandlerDecl} :
    decl ∈ state.handlers ↔ .handler decl ∈ state.members := by
  simp only [handlers, List.mem_filterMap]
  constructor
  · rintro ⟨member, inside, found⟩
    cases member with
    | handler other => exact Option.some.inj found ▸ inside
    | broken span => cases found
  · exact fun inside => ⟨_, inside, rfl⟩

/-- Handlers are looked into, or refused, as long as they have the same names. -/
theorem member_reports_alike {outlook beyond : Outlook} (state : String)
    {members others : List StateMember}
    (each : ∀ decl, .handler decl ∈ members → ∀ other, .handler other ∈ others →
      decl.bare = other.bare → (checkHandler outlook decl).problems =
        (checkHandler beyond other).problems)
    (bare : members.map StateMember.bare = others.map StateMember.bare) (seen : List String) :
    (memberReports outlook state seen members).map problemsOf =
      (memberReports beyond state seen others).map problemsOf := by
  induction members generalizing others seen with
  | nil => rw [List.map_eq_nil_iff.mp bare.symm, memberReports, memberReports]
  | cons member members induction =>
      cases others with
      | nil => exact absurd bare (List.cons_ne_nil _ _)
      | cons other others =>
          obtain ⟨own, behind⟩ := List.cons.inj bare
          have later := induction (fun decl inside other beside =>
            each decl (List.mem_cons_of_mem _ inside) other (List.mem_cons_of_mem _ beside)) behind
          cases member with
          | broken span =>
              cases other with
              | broken place => exact later seen
              | handler other => cases own
          | handler decl =>
              cases other with
              | broken place => cases own
              | handler other =>
                  have same : decl.bare = other.bare := StateMember.handler.inj own
                  have name : decl.name = other.name := (congrArg HandlerDecl.name same :)
                  have here := each decl List.mem_cons_self other List.mem_cons_self same
                  simp only [memberReports, name]
                  split
                  · simp only [List.map_cons, later]
                    rfl
                  · simp only [List.map_cons, later]
                    exact congrArg (· :: _) here

variable {first second : Script} {place : Nat} (alike : first.AlikeBut place second)
  (placed : first.Placed) (placedOther : second.Placed) (library : Library)

include alike placed placedOther

theorem function_reports_alike :
    ((first.functionReports library).eraseIdx place).map problemsOf =
      ((second.functionReports library).eraseIdx place).map problemsOf := by
  simp only [Script.functionReports, List.eraseIdx_map, List.map_map]
  refine map_alike (fun decl member other beside bare => ?_) alike.others
  exact check_function_alike alike placed placedOther library
    (List.mem_of_mem_eraseIdx member) (List.mem_of_mem_eraseIdx beside) bare

theorem StateDecl.reports_alike {state beside : StateDecl} (inside : state ∈ first.allStates)
    (insideOther : beside ∈ second.allStates) (bare : state.bare = beside.bare) :
    (state.reports (first.tables library)).map problemsOf =
      (beside.reports (second.tables library)).map problemsOf := by
  have name : state.name = beside.name := (congrArg StateDecl.name bare :)
  have members : state.members.map StateMember.bare = beside.members.map StateMember.bare :=
    (congrArg StateDecl.members bare :)
  have empty : state.members.isEmpty = beside.members.isEmpty := by
    simpa using congrArg List.isEmpty members
  unfold StateDecl.reports
  rw [empty, name]
  split
  · rfl
  · refine member_reports_alike _ (fun decl member other among same => ?_) members []
    exact check_handler_alike alike placed placedOther library inside insideOther
      (StateDecl.mem_handlers.mpr member) (StateDecl.mem_handlers.mpr among) same

theorem state_reports_alike :
    (first.stateReports library).map problemsOf = (second.stateReports library).map problemsOf := by
  have starting := alike.starting
  have states : (first.states.flatMap (StateDecl.reports (first.tables library))).map problemsOf =
      (second.states.flatMap (StateDecl.reports (second.tables library))).map problemsOf := by
    rw [List.map_flatMap, List.map_flatMap, List.flatMap_def, List.flatMap_def]
    refine congrArg List.flatten (map_alike (fun state member beside among bare => ?_) alike.states)
    exact StateDecl.reports_alike alike placed placedOther library
      (List.mem_append_right _ member) (List.mem_append_right _ among) bare
  rw [Script.stateReports, Script.stateReports, List.map_append, List.map_append, states]
  refine congrArg (· ++ _) ?_
  cases own : first.defaultState with
  | none =>
      cases other : second.defaultState with
      | none => rfl
      | some beside => simp [own, other] at starting
  | some state =>
      cases other : second.defaultState with
      | none => simp [own, other] at starting
      | some beside =>
          simp only [own, other, Option.map_some, Option.some.injEq] at starting
          exact StateDecl.reports_alike alike placed placedOther library
            (List.mem_append_left _ (by simp [own])) (List.mem_append_left _ (by simp [other]))
            starting

end Reports

section Passages

/-- The validator in front of a part of a script and behind it. -/
structure Passage where
  before : Validator
  behind : Validator

namespace Passage

def of {α : Type} (action : Validation α) (state : Validator) : Passage :=
  ⟨state, (action.run state).2⟩

def reports (passage : Passage) : List Diagnostic :=
  passage.behind.reports.drop passage.before.reports.length

/-- No body is at hand in front of the part or behind it, and what is declared outside of bodies stays
as it is. -/
structure Apart (passage : Passage) : Prop where
  before : passage.before.Idle
  behind : passage.behind.Idle
  tables : passage.behind.tables = passage.before.tables

/-- Every passage begins where the one in front of it has ended. -/
def Join : Validator → List Passage → Validator → Prop
  | first, [], last => first = last
  | first, passage :: rest, last => passage.before = first ∧ Join passage.behind rest last

end Passage

def functionPassages (state : Validator) : List FunctionDecl → List Passage
  | [] => []
  | decl :: rest =>
    let own := Passage.of (validateFunction decl) state
    own :: functionPassages own.behind rest

/-- The passages through the handlers of a state. -/
def memberPassages (name : String) (seen : List String) (state : Validator) :
    List StateMember → List Passage
  | [] => []
  | .broken _ :: rest => memberPassages name seen state rest
  | .handler decl :: rest =>
    if seen.contains decl.name then
      let own := Passage.of (tell (report decl.span (.repeatedHandler decl.name name))) state
      own :: memberPassages name seen own.behind rest
    else
      let own := Passage.of (validateHandler decl) state
      own :: memberPassages name (decl.name :: seen) own.behind rest

def StateDecl.passages (state : Validator) (decl : StateDecl) : List Passage :=
  if decl.members.isEmpty then [.of (validateState decl) state]
  else memberPassages decl.name [] state decl.members

def statePassages (state : Validator) : List StateDecl → List Passage
  | [] => []
  | decl :: rest =>
    decl.passages state ++ statePassages ((validateState decl).run state).2 rest

def defaultPassages (span : Span) (state : Validator) : Option StateDecl → List Passage
  | some decl => decl.passages state
  | none => [.of (validateDefaultState span none) state]

namespace Script

variable (library : Library) (script : Script)

/-- The state in front of the first body. -/
def opening : Validator := ((validateHead script).run { library }).2

/-- The passages through the functions of a script. -/
def functionsPassed : List Passage :=
  functionPassages (script.opening library) ((validateHead script).run { library }).1.1

/-- The passages through the handlers of a script. -/
def handlersPassed : List Passage :=
  let (functions, defaultStates, states, _) := ((validateHead script).run { library }).1
  let behind := ((functions.mapM validateFunction).run (script.opening library)).2
  let started := ((validateDefaultState script.span defaultStates.head?).run behind).2
  defaultPassages script.span behind defaultStates.head? ++ statePassages started states

end Script

namespace Passage

/-- Passages that join up between two states, each of them apart. -/
structure Through (first : Validator) (passages : List Passage) (last : Validator) : Prop where
  joined : Join first passages last
  apart : ∀ passage ∈ passages, passage.Apart
  ended : last.Idle

theorem Through.append {first middle last : Validator} {front back : List Passage}
    (one : Through first front middle) (two : Through middle back last) :
    Through first (front ++ back) last := by
  refine ⟨?_, List.forall_mem_append.mpr ⟨one.apart, two.apart⟩, two.ended⟩
  have joined := one.joined
  clear one
  induction front generalizing first with
  | nil => exact joined.symm ▸ two.joined
  | cons passage front induction => exact ⟨joined.1, induction joined.2⟩

theorem Through.one {α : Type} {action : Validation α} {gives : α → Prop} {state : Validator}
    (leaves : Leaves Validator.tables action gives) (begun : state.Idle)
    (ended : (action.run state).2.Idle) : Through state [.of action state] (action.run state).2 :=
  ⟨⟨rfl, rfl⟩, List.forall_mem_singleton.mpr ⟨begun, ended, (leaves state).2⟩, ended⟩

theorem idle_behind_tell {α : Type} {state : Validator} (idle : state.Idle) (checked : Checked α) :
    ((tell checked).run state).2.Idle :=
  ⟨idle.environments, idle.labels, idle.context⟩

theorem through_functions {state : Validator} (idle : state.Idle) (decls : List FunctionDecl) :
    Through state (functionPassages state decls) ((decls.mapM validateFunction).run state).2 := by
  induction decls generalizing state with
  | nil => exact ⟨rfl, by simp [functionPassages], idle⟩
  | cons decl rest induction =>
      have own := Through.one (validate_function_leaves decl) idle ⟨rfl, rfl, rfl⟩
      rw [List.mapM_cons]
      exact own.append (induction own.ended)

theorem through_members {state : Validator} (idle : state.Idle) (name : String) (seen : List String)
    (members : List StateMember) :
    Through state (memberPassages name seen state members)
      ((validateMembers name seen members).run state).2 := by
  induction members generalizing state seen with
  | nil => exact ⟨rfl, by simp [memberPassages], idle⟩
  | cons member rest induction =>
      cases member with
      | broken span =>
          rw [validateMembers]
          exact induction idle seen
      | handler decl =>
          rw [validateMembers, memberPassages]
          split
          · have own := Through.one (Leaves.of_tell
              (report decl.span (.repeatedHandler decl.name name))).tables idle
                (idle_behind_tell idle _)
            exact own.append (induction own.ended seen)
          · have own := Through.one (validate_handler_leaves decl) idle ⟨rfl, rfl, rfl⟩
            exact own.append (induction own.ended _)

theorem through_state {state : Validator} (idle : state.Idle) (decl : StateDecl) :
    Through state (decl.passages state) ((validateState decl).run state).2 := by
  have members := through_members idle decl.name [] decl.members
  unfold StateDecl.passages
  split
  · rename_i empty
    refine Through.one (validate_state_leaves decl) idle ?_
    rw [validateState, if_pos empty]
    exact idle_behind_tell idle _
  · rename_i some
    rw [validateState, if_neg some]
    exact members

theorem through_states {state : Validator} (idle : state.Idle) (decls : List StateDecl) :
    Through state (statePassages state decls) ((decls.mapM validateState).run state).2 := by
  induction decls generalizing state with
  | nil => exact ⟨rfl, by simp [statePassages], idle⟩
  | cons decl rest induction =>
      have own := through_state idle decl
      rw [List.mapM_cons]
      exact own.append (induction own.ended)

theorem through_default {state : Validator} (idle : state.Idle) (span : Span)
    (initial : Option StateDecl) :
    Through state (defaultPassages span state initial)
      ((validateDefaultState span initial).run state).2 := by
  cases initial with
  | none => exact Through.one (validate_default_leaves span none) idle (idle_behind_tell idle _)
  | some decl => exact through_state idle decl

theorem through_script (library : Library) (script : Script) :
    Through (script.opening library) (script.functionsPassed library ++ script.handlersPassed library)
      ((validateScript script).run { library }).2 := by
  have idle : (script.opening library).Idle := by
    rw [Script.opening, validate_head_run]
    exact ⟨rfl, rfl, rfl⟩
  have functions := through_functions idle ((validateHead script).run { library }).1.1
  have started := through_default functions.ended script.span
    ((validateHead script).run { library }).1.2.1.head?
  have states := through_states started.ended ((validateHead script).run { library }).1.2.2.1
  exact functions.append (started.append states)

theorem reports_of {α : Type} {action : Validation α} {state : Validator} {checked : Checked α}
    {uses : List Use} (runs : Runs action state checked uses) :
    (of action state).reports = checked.reports := by
  rw [Runs] at runs
  rw [reports, of, runs]
  exact List.drop_left

theorem behind_of {α : Type} {action : Validation α} {state : Validator} {checked : Checked α}
    {uses : List Use} (runs : Runs action state checked uses) :
    (of action state).behind = state.told checked.reports uses := by
  rw [Runs] at runs
  rw [of, runs]

variable {final : List Use} {outlook : Outlook} {state : Validator}

theorem functions_reports (between : state.Between final outlook) {decls : List FunctionDecl}
    (foreseen : ∀ decl ∈ decls, (Inspection.ofFunction outlook decl).Foreseen final) :
    (functionPassages state decls).map reports =
      decls.map fun decl => (checkFunction outlook decl).reports := by
  induction decls generalizing state with
  | nil => rfl
  | cons decl rest induction =>
      obtain ⟨first, others⟩ := List.forall_mem_cons.mp foreseen
      have own := validate_function_runs between first
      have behind := between.told (checkFunction outlook decl).reports first.known.uses
      rw [functionPassages, List.map_cons, reports_of own, behind_of own]
      exact congrArg (List.cons _) (induction behind others)

theorem members_reports {seen : List String} {members : List StateMember} (name : String)
    (between : state.Between final outlook)
    (foreseen : ∀ decl ∈ HandlerDecl.firsts seen (members.filterMap StateMember.handler?),
      (Inspection.ofHandler outlook decl).Foreseen final) :
    (memberPassages name seen state members).map reports =
      memberReports outlook name seen members := by
  induction members generalizing seen state with
  | nil => rfl
  | cons member members induction =>
      cases member with
      | broken span => exact induction between foreseen
      | handler decl =>
          have read : (.handler decl :: members).filterMap StateMember.handler? =
              decl :: members.filterMap StateMember.handler? := rfl
          rw [read] at foreseen
          unfold memberPassages memberReports
          by_cases known : seen.contains decl.name = true
          · have own := Runs.of_tell state (report decl.span (.repeatedHandler decl.name name))
            have behind := between.told (report decl.span (.repeatedHandler decl.name name)).reports
              (List.nil_subset _)
            rw [HandlerDecl.firsts_seen known] at foreseen
            rw [if_pos known, if_pos known, List.map_cons, reports_of own, behind_of own]
            exact congrArg (List.cons _) (induction behind foreseen)
          · rw [HandlerDecl.firsts_fresh known] at foreseen
            obtain ⟨first, others⟩ := List.forall_mem_cons.mp foreseen
            have own := validate_handler_runs between first
            have behind := between.told (checkHandler outlook decl).reports first.known.uses
            rw [if_neg known, if_neg known, List.map_cons, reports_of own, behind_of own]
            exact congrArg (List.cons _) (induction behind others)

theorem state_reports {decl : StateDecl} (between : state.Between final outlook)
    (foreseen : decl.Foreseen final outlook) :
    (decl.passages state).map reports = decl.reports outlook := by
  unfold StateDecl.passages StateDecl.reports
  split
  · rename_i empty
    have own := validate_state_runs between foreseen
    rw [List.map_singleton, reports_of own, checkState, if_pos empty]
    rfl
  · exact members_reports decl.name between fun handler first =>
      foreseen.inspections _ (List.mem_map_of_mem first)

theorem states_reports (between : state.Between final outlook) {decls : List StateDecl}
    (foreseen : ∀ decl ∈ decls, decl.Foreseen final outlook)
    (made : (checkEach (checkState outlook) decls).value.flatMap StateDecl.uses ⊆ final) :
    (statePassages state decls).map reports = decls.flatMap (StateDecl.reports outlook) := by
  induction decls generalizing state with
  | nil => rfl
  | cons decl rest induction =>
      obtain ⟨first, others⟩ := List.forall_mem_cons.mp foreseen
      obtain ⟨own, later⟩ := List.append_subset.mp made
      have run : ((validateState decl).run state).2 =
          state.told (checkState outlook decl).reports (checkState outlook decl).value.uses :=
        behind_of (validate_state_runs between first)
      rw [statePassages, List.map_append, state_reports between first, run,
        induction (between.told _ own) others later, List.flatMap_cons]

theorem default_reports {initial : Option StateDecl} (span : Span)
    (between : state.Between final outlook)
    (foreseen : ∀ decl ∈ initial, decl.Foreseen final outlook) :
    (defaultPassages span state initial).map reports = defaultReports outlook span initial := by
  cases initial with
  | none =>
      have own := validate_default_runs span between foreseen
      rw [defaultPassages, List.map_singleton, reports_of own]
      rfl
  | some decl => exact state_reports between (foreseen decl rfl)

end Passage

namespace Script

variable {library : Library} {script : Script}

theorem opening_outlook : (script.opening library).outlook = script.tables library := by
  rw [opening, validate_head_run, ← script.tables_eq library]
  rfl

variable (foreseen : script.Foreseen library)

include foreseen

theorem functions_passed_reports :
    (script.functionsPassed library).map Passage.reports = script.functionReports library := by
  have tables : script.prospect library = script.tables library := script.tables_eq library
  have passed := Passage.functions_reports Foreseen.between_functions
    fun decl listed => foreseen.function listed
  rw [functionsPassed, opening, validate_head_run, functionReports, ← tables]
  exact passed.trans (functions_reports (script.prospect library) library [] script.functions)

theorem handlers_passed_reports :
    (script.handlersPassed library).map Passage.reports = script.stateReports library := by
  have tables : script.prospect library = script.tables library := script.tables_eq library
  have behind : ((script.listedFunctions library).1.mapM validateFunction).run
      (script.declaredState library) =
        ((script.checkedFunctions library).value, script.behindFunctions library) :=
    foreseen.functions_run
  have started : (validateDefaultState script.span script.startingState).run
      (script.behindFunctions library) =
        ((script.checkedStart library).value, script.behindStart library) :=
    foreseen.start_run
  have passed : script.handlersPassed library =
      defaultPassages script.span (script.behindFunctions library) script.startingState ++
        statePassages (script.behindStart library) script.otherStates := by
    have split : script.handlersPassed library =
        let head := (validateHead script).run { library }
        let behind := ((head.1.1.mapM validateFunction).run head.2).2
        let started := ((validateDefaultState script.span head.1.2.1.head?).run behind).2
        defaultPassages script.span behind head.1.2.1.head? ++
          statePassages started head.1.2.2.1 := rfl
    rw [split, validate_head_run]
    dsimp only
    rw [behind]
    dsimp only
    exact congrArg (fun run => _ ++ statePassages run.2 _) started
  have start := Passage.default_reports script.span Foreseen.between_start
    fun _ starts => foreseen.starting starts
  have states := Passage.states_reports Foreseen.between_states
    (fun _ listed => foreseen.other listed) (script.uses_made library).2.2
  have others := states_reports (script.prospect library)
    (declareStates [] script.defaultState.toList).value.2 script.states
  rw [passed, List.map_append, start, states, stateReports, ← tables]
  refine congrArg₂ _ ?_ others
  unfold startingState
  cases script.defaultState <;> rfl

theorem validate_reports : (validate library script).reports =
    (script.opening library).reports ++
      (script.functionsPassed library ++ script.handlersPassed library).flatMap Passage.reports := by
  have head : (script.opening library).reports = script.headReports library := by
    rw [opening, validate_head_run]
    rfl
  rw [foreseen.validate_eq, check_declarations_reports, head, List.flatMap_append,
    List.flatMap_def, List.flatMap_def, functions_passed_reports foreseen,
    handlers_passed_reports foreseen, List.append_assoc]

end Script

/-- What is reported on a script is reported in front of the first body or on one of the passages,
in turn. The passages join up to the run over the script, and none leaves anything of a body. -/
structure Script.PassedApart (library : Library) (script : Script) (reports : List Diagnostic) :
    Prop where
  reports : reports = (script.opening library).reports ++
    (script.functionsPassed library ++ script.handlersPassed library).flatMap Passage.reports
  through : Passage.Through (script.opening library)
    (script.functionsPassed library ++ script.handlersPassed library)
    ((validateScript script).run { library }).2

theorem source_passed (library : Library) {source : String} (clean : syntaxErrors source = []) :
    (parse (tokenize source)).1.PassedApart library (checkSource library source).reports := by
  refine ⟨?_, Passage.through_script library _⟩
  have whole : checkSource library source = validate library (parse (tokenize source)).1 := by
    rw [checkSource, clean]
    rfl
  rw [whole]
  exact Script.validate_reports (source_foreseen library clean)

end Passages

/-- No body can be told from what is reported of the others. However a body is at fault, behind it
none is at hand, and what is declared outside of bodies is as it was in front of it. -/
theorem bodies_checked_apart (library : Library) {first second : String} {place : Nat}
    (clean : syntaxErrors first = []) (cleanOther : syntaxErrors second = [])
    (alike : (parse (tokenize first)).1.AlikeBut place (parse (tokenize second)).1) :
    let one := (parse (tokenize first)).1
    let two := (parse (tokenize second)).1
    one.PassedApart library (checkSource library first).reports ∧
      two.PassedApart library (checkSource library second).reports ∧
      ((one.functionsPassed library).eraseIdx place).map (problemsOf ·.reports) =
        ((two.functionsPassed library).eraseIdx place).map (problemsOf ·.reports) ∧
      (one.handlersPassed library).map (problemsOf ·.reports) =
        (two.handlersPassed library).map (problemsOf ·.reports) ∧
      (one.opening library).outlook.relocate .nowhere =
        (two.opening library).outlook.relocate .nowhere ∧
      ∀ (state : Validator) (owner : Owner) (parameters : ParameterList) (scope : ScopeInfo)
        (body : List Stmt),
        let passage := Passage.of (validateBody owner parameters scope body) state
        passage.behind.Idle ∧ passage.behind.tables = state.tables := by
  intro one two
  have placed : one.Placed := parse_placed first
  have placedOther : two.Placed := parse_placed second
  have foreseen : one.Foreseen library := source_foreseen library clean
  have foreseenOther : two.Foreseen library := source_foreseen library cleanOther
  have near : one.PassedApart library (checkSource library first).reports :=
    source_passed library clean
  have far : two.PassedApart library (checkSource library second).reports :=
    source_passed library cleanOther
  have same : one.AlikeBut place two := alike
  clear_value one two
  have functions := function_reports_alike same placed placedOther library
  have handlers := state_reports_alike same placed placedOther library
  rw [← Script.functions_passed_reports foreseen, ← Script.functions_passed_reports foreseenOther,
    List.eraseIdx_map, List.eraseIdx_map, List.map_map, List.map_map] at functions
  rw [← Script.handlers_passed_reports foreseen, ← Script.handlers_passed_reports foreseenOther,
    List.map_map, List.map_map] at handlers
  refine ⟨near, far, functions, handlers, ?_, fun state owner parameters scope body => ?_⟩
  · rw [Script.opening_outlook, Script.opening_outlook]
    exact same.tables_bare library
  · exact ⟨idle_behind_body state owner parameters scope body,
      (validate_body_leaves owner parameters scope body state).2⟩

/-- What a function says besides its body. -/
def FunctionDecl.heading (decl : FunctionDecl) : String × ValueType × ParameterList × Bool :=
  (decl.name, decl.returns, decl.parameters.relocate .nowhere, decl.faulty)

theorem FunctionDecl.head_of_heading {decl other : FunctionDecl}
    (same : decl.heading = other.heading) : decl.bare.head = other.bare.head := by
  simp only [heading, Prod.mk.injEq] at same
  obtain ⟨name, returns, parameters, faulty⟩ := same
  simp only [head, bare, name, returns, parameters, faulty]

/-- Functions with empty bodies say the same if they do so besides their bodies. -/
theorem FunctionDecl.bare_of_empty {decl other : FunctionDecl} (same : decl.heading = other.heading)
    (scope : decl.scope.recast .bare = other.scope.recast .bare) (empty : decl.body = [])
    (emptyOther : other.body = []) : decl.bare = other.bare := by
  have head := head_of_heading same
  simp only [FunctionDecl.head, bare, FunctionDecl.mk.injEq] at head
  obtain ⟨-, name, returns, parameters, -, -, faulty⟩ := head
  simp only [bare, name, returns, parameters, scope, empty, emptyOther, faulty]

set_option maxRecDepth 10000 in
/-- What one function declares has no part in what is reported of the other, nor in that the default
state is missing. -/
theorem small_bodies_apart :
    let first := "f()\x7b\x7dg(integer a,integer a)\x7b\x7d"
    let second := "f()\x7binteger x;\x7dg(integer a,integer a)\x7b\x7d"
    let one := (parse (tokenize first)).1
    let two := (parse (tokenize second)).1
    (syntaxErrors first = [] ∧ syntaxErrors second = [] ∧ one.AlikeBut 0 two) ∧
      (one.functionsPassed .minimal).map (problemsOf ·.reports) =
        [[], [.repeatedParameter "a"]] ∧
      (two.functionsPassed .minimal).map (problemsOf ·.reports) =
        [[.unusedVariable "x"], [.repeatedParameter "a"]] ∧
      (one.handlersPassed .minimal).map (problemsOf ·.reports) =
        (two.handlersPassed .minimal).map (problemsOf ·.reports) := by
  intro first second one two
  have spelled : first = String.ofList _ := rfl
  have respelled : second = String.ofList _ := rfl
  have clean : syntaxErrors first = [] := by
    rw [syntax_errors_spelled spelled]
    decide +kernel
  have cleanOther : syntaxErrors second = [] := by
    rw [syntax_errors_spelled respelled]
    decide +kernel
  have alike : one.AlikeBut 0 two := by
    have shape : (one.functions.length = 2 ∧ two.functions.length = 2) ∧
        one.functions.map FunctionDecl.heading = two.functions.map FunctionDecl.heading ∧
        (one.functions.map (·.scope.recast .bare)).tail =
          (two.functions.map (·.scope.recast .bare)).tail ∧
        ((one.functions ++ two.functions).map (·.body.isEmpty)) = [true, true, false, true] ∧
        (one.globals.isEmpty && one.defaultState.isNone && one.states.isEmpty) = true ∧
        (two.globals.isEmpty && two.defaultState.isNone && two.states.isEmpty) = true := by
      simp only [one, two, tokenize_spelled spelled, tokenize_spelled respelled]
      decide +kernel
    generalize one = one, two = two at shape ⊢
    obtain ⟨⟨own, others⟩, headings, scopes, empty, rest, restOther⟩ := shape
    obtain ⟨f, g, own⟩ := List.length_eq_two.mp own
    obtain ⟨f', g', others⟩ := List.length_eq_two.mp others
    simp only [own, others, List.map_cons, List.cons.injEq, List.tail_cons, List.cons_append,
      List.nil_append, List.isEmpty_iff, and_true, Bool.and_eq_true, Option.isNone_iff_eq_none,
      List.map_nil] at headings scopes empty rest restOther
    simp only [Script.AlikeBut, Script.besides, own, others, rest, restOther, List.map_cons,
      List.map_nil, List.modify_zero_cons, FunctionDecl.head_of_heading headings.1,
      FunctionDecl.bare_of_empty headings.2 scopes empty.2.1 empty.2.2.2]
  have reported : (one.functionsPassed .minimal).map (problemsOf ·.reports) =
        [[], [.repeatedParameter "a"]] ∧
      (two.functionsPassed .minimal).map (problemsOf ·.reports) =
        [[.unusedVariable "x"], [.repeatedParameter "a"]] := by
    simp only [one, two, tokenize_spelled spelled, tokenize_spelled respelled]
    decide +kernel
  obtain ⟨_, _, _, handlers, _⟩ := bodies_checked_apart .minimal clean cleanOther alike
  exact ⟨⟨clean, cleanOther, alike⟩, reported.1, reported.2, handlers⟩

end Lsl
