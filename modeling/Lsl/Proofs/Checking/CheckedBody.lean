import Lsl.Proofs.Checking.Provenance

/-!
The bodies and handlers of an accepted script. The bodies are those that were read, checked in view
of the declarations of the script, so what every check of a body that reports no error brings about
holds of all of them. No two states go by one name and no state handles an event twice, so that a
handler is known by its state and its event.
-/

set_option autoImplicit false

namespace Lsl

/-- A body as it comes out of a check that reports no error. It was read in order, and nothing was
wrong with it. -/
inductive CodeScope.Passed (outlook : Outlook) (owner : Owner) (parameters : ParameterList) :
    CodeScope → Prop where
  | checked {info : ScopeInfo} {body : List Stmt} (order : CodeScope.InOrder ⟨info, body⟩)
      (fresh : Stmt.Fresh body) (sound : Stmt.AllSound body)
      (silent : (checkBody outlook owner parameters info body).Silent) :
      Passed outlook owner parameters
        ⟨info, (checkBody outlook owner parameters info body).value.2⟩

/-- Checking a body leaves its parameters alone if it reports no error. -/
theorem check_body_parameters {library : Library} {script : Script} {owner : Owner}
    {parameters : ParameterList} {info : ScopeInfo} {body : List Stmt}
    (sound : Stmt.AllSound body)
    (silent : (checkBody (script.outlook library) owner parameters info body).Silent) :
    (checkBody (script.outlook library) owner parameters info body).value.1 = parameters :=
  ((script.grants_traced library).admits owner parameters info body sound silent).1

section

variable {library : Library} {script : Script}

theorem check_function_passed {decl : FunctionDecl} (order : decl.ownScope.InOrder)
    (fresh : Stmt.Fresh decl.body) (sound : Stmt.AllSound decl.body)
    (silent : (checkFunction (script.outlook library) decl).Silent) :
    let checked := (checkFunction (script.outlook library) decl).value
    checked.ownScope.Passed (script.outlook library) (.function checked.name checked.returns)
      checked.parameters := by
  simp only [checkFunction, Checked.silent_bind] at silent
  simp only [checkFunction, Checked.value_bind, Checked.value_pure, FunctionDecl.ownScope,
    check_body_parameters sound silent.1]
  exact .checked order fresh sound silent.1

theorem check_handler_passed {decl : HandlerDecl} (order : decl.ownScope.InOrder)
    (fresh : Stmt.Fresh decl.body) (sound : Stmt.AllSound decl.body)
    (silent : (checkHandler (script.outlook library) decl).Silent) :
    let checked := (checkHandler (script.outlook library) decl).value
    checked.ownScope.Passed (script.outlook library) (.handler checked.name)
      checked.parameters := by
  simp only [checkHandler, Checked.silent_bind] at silent
  simp only [checkHandler, Checked.value_bind, Checked.value_pure, HandlerDecl.ownScope,
    check_body_parameters sound silent.2.1]
  exact .checked order fresh sound silent.2.1

end

theorem check_members_handler {outlook : Outlook} {state : String} {seen : List String}
    {members : List StateMember} (silent : (checkMembers outlook state seen members).Silent)
    {decl : HandlerDecl} (member : .handler decl ∈ (checkMembers outlook state seen members).value) :
    ∃ source, .handler source ∈ members ∧ (checkHandler outlook source).Silent ∧
      decl = (checkHandler outlook source).value := by
  induction members generalizing seen with
  | nil => simp [checkMembers] at member
  | cons first members induction =>
      have later (found : ∃ source, .handler source ∈ members ∧
          (checkHandler outlook source).Silent ∧ decl = (checkHandler outlook source).value) :
          ∃ source, .handler source ∈ first :: members ∧ (checkHandler outlook source).Silent ∧
            decl = (checkHandler outlook source).value := by
        obtain ⟨source, inside, checked⟩ := found
        exact ⟨source, List.mem_cons_of_mem _ inside, checked⟩
      cases first with
      | broken span =>
          simp only [checkMembers, Checked.silent_bind, Checked.value_bind, Checked.value_pure]
            at silent member
          rcases List.mem_cons.mp member with same | member
          · cases same
          · exact later (induction silent.1 member)
      | handler source =>
          unfold checkMembers at silent member
          split at silent
          · simp [report, Checked.Silent, Diagnostic.isError, Problem.severity] at silent
          · rename_i fresh
            simp only [Checked.silent_bind] at silent
            rw [if_neg fresh] at member
            rcases List.mem_cons.mp member with same | member
            · cases same
              exact ⟨source, List.mem_cons_self, silent.1, rfl⟩
            · exact later (induction silent.2.1 member)

theorem check_state_handler {outlook : Outlook} {state : StateDecl}
    (silent : (checkState outlook state).Silent) {decl : HandlerDecl}
    (member : decl ∈ (checkState outlook state).value.handlers) :
    ∃ source ∈ state.handlers, (checkHandler outlook source).Silent ∧
      decl = (checkHandler outlook source).value := by
  obtain ⟨part, inside, found⟩ := List.mem_filterMap.mp member
  unfold checkState at silent inside
  split at silent
  · simp [report, Checked.Silent, Diagnostic.isError, Problem.severity] at silent
  · rename_i some
    simp only [Checked.silent_bind] at silent
    rw [if_neg some] at inside
    cases part with
    | broken span => cases found
    | handler handler =>
        cases found
        obtain ⟨source, origin, checked⟩ := check_members_handler silent.1 inside
        exact ⟨source, List.mem_filterMap.mpr ⟨_, origin, rfl⟩, checked⟩

namespace Accepted

variable {library : Library} {source : String} (accepted : Accepted library source)

include accepted

theorem sound : (parse (tokenize source)).1.Sound := parse_sound accepted.parsed

theorem view :
    ((checkSource library source).value.outlook library).view =
      ((parse (tokenize source)).1.outlook library).view := by
  obtain ⟨_, globals, functions⟩ := check_declarations_holds
    ((parse (tokenize source)).1.grants_traced library) accepted.sound accepted.silent
  rw [accepted.checked]
  simp only [Script.outlook, globals, functions]

theorem function_passed {decl : FunctionDecl}
    (member : decl ∈ (checkSource library source).value.functions) :
    decl.ownScope.Passed ((parse (tokenize source)).1.outlook library)
      (.function decl.name decl.returns) decl.parameters := by
  obtain ⟨_, _, _, functions, _, _, form⟩ := check_declarations_silent
    ((parse (tokenize source)).1.grants_traced library) accepted.sound accepted.silent
  rw [accepted.checked, form] at member
  obtain ⟨origin, inside, silent, rfl⟩ := check_each_mem functions member
  have own : origin.ownScope ∈ (parse (tokenize source)).1.bodies :=
    List.mem_append_left _ (List.mem_map_of_mem inside)
  have read := parse_bodies own
  exact check_function_passed read.1 (read.2 accepted.parsed) (accepted.sound.bodies _ own) silent

theorem handler_passed {state : StateDecl}
    (member : state ∈ (checkSource library source).value.allStates) {decl : HandlerDecl}
    (handler : decl ∈ state.handlers) :
    decl.ownScope.Passed ((parse (tokenize source)).1.outlook library)
      (.handler decl.name) decl.parameters := by
  obtain ⟨_, _, _, _, start, states, form⟩ := check_declarations_silent
    ((parse (tokenize source)).1.grants_traced library) accepted.sound accepted.silent
  rw [accepted.checked, form, Script.recorded] at member
  obtain ⟨origin, inside, silent, rfl⟩ : ∃ origin ∈ (parse (tokenize source)).1.allStates,
      (checkState ((parse (tokenize source)).1.outlook library) origin).Silent ∧
        state = (checkState ((parse (tokenize source)).1.outlook library) origin).value := by
    rcases List.mem_append.mp member with member | member
    · cases initial : (parse (tokenize source)).1.defaultState with
      | none =>
          rw [initial] at member
          simp [checkDefaultState] at member
      | some first =>
          rw [initial] at member start
          simp only [checkDefaultState, Checked.silent_bind, Checked.value_bind,
            Checked.value_pure, Option.toList_some, List.mem_singleton] at member start
          exact ⟨first, by simp [Script.allStates, initial], start.1, member⟩
    · obtain ⟨origin, inside, checked⟩ := check_each_mem states member
      exact ⟨origin, List.mem_append_right _ inside, checked⟩
  obtain ⟨read, among, checked, rfl⟩ := check_state_handler silent handler
  have own : read.ownScope ∈ (parse (tokenize source)).1.bodies := List.mem_append_right _
    (List.mem_flatMap.mpr ⟨origin, inside, StateDecl.own_scope_mem among⟩)
  have ordered := parse_bodies own
  exact check_handler_passed ordered.1 (ordered.2 accepted.parsed) (accepted.sound.bodies _ own)
    checked

theorem body_passed {body : CodeScope} (member : body ∈ (checkSource library source).value.bodies) :
    ∃ owner parameters,
      body.Passed ((parse (tokenize source)).1.outlook library) owner parameters := by
  rcases List.mem_append.mp member with member | member
  · obtain ⟨decl, known, rfl⟩ := List.mem_map.mp member
    exact ⟨_, _, accepted.function_passed known⟩
  · obtain ⟨state, known, own⟩ := List.mem_flatMap.mp member
    obtain ⟨part, among, found⟩ := List.mem_filterMap.mp own
    cases part with
    | handler decl =>
        cases found
        exact ⟨_, _, accepted.handler_passed known (List.mem_filterMap.mpr ⟨_, among, rfl⟩)⟩
    | broken span => cases found

end Accepted

/-- The events that a state handles, in the order of its handlers. -/
def StateDecl.events (decl : StateDecl) : List String := decl.handlers.map (·.name)

/-- The handlers of a script, each by its state and its event. -/
def Script.handled (script : Script) : List (String × String) :=
  script.allStates.flatMap fun state => state.events.map (state.name, ·)

theorem declare_states_distinct {declared : List (String × Nat)} {list : List StateDecl}
    (silent : (declareStates declared list).Silent) (distinct : (declared.map (·.1)).Nodup) :
    (declareStates declared list).value.2.map (·.1) =
        declared.map (·.1) ++ list.map StateDecl.name ∧
      (declared.map (·.1) ++ list.map StateDecl.name).Nodup := by
  induction list generalizing declared with
  | nil => simpa [declareStates] using distinct
  | cons decl list induction =>
      simp only [declareStates, declareState, Checked.silent_bind, Checked.value_bind,
        Checked.value_pure] at silent ⊢
      have free := report_at_silent (by grind [Problem.severity]) silent.1.1
      simp only [free, reportAt, Checked.value_pure, Bool.false_eq_true, if_false] at silent ⊢
      have fresh : decl.name ∉ declared.map (·.1) := by
        intro member
        obtain ⟨entry, inside, same⟩ := List.mem_map.mp member
        have known : (declared.lookup decl.name).isSome = true := by
          rw [List.lookup_isSome_iff]
          exact ⟨entry, inside, by simp [same]⟩
        rw [if_pos known] at free
        cases free
      have extended : ((declared ++ [(decl.name, decl.start)]).map (·.1)).Nodup := by
        rw [List.map_append]
        exact nodup_extended distinct fresh
      simpa using induction silent.2.1 extended

theorem check_handler_name (outlook : Outlook) (decl : HandlerDecl) :
    (checkHandler outlook decl).value.name = decl.name := rfl

theorem check_members_distinct {outlook : Outlook} {state : String} {seen : List String}
    {members : List StateMember} (silent : (checkMembers outlook state seen members).Silent) :
    let events := (checkMembers outlook state seen members).value.filterMap StateMember.handler?
    (events.map (·.name)).Nodup ∧ ∀ decl ∈ events, decl.name ∉ seen := by
  induction members generalizing seen with
  | nil => simp [checkMembers]
  | cons member members induction =>
      cases member with
      | broken span =>
          simp only [checkMembers, Checked.silent_bind] at silent
          exact induction silent.1
      | handler decl =>
          unfold checkMembers at silent ⊢
          split at silent
          · simp [report, Checked.Silent, Diagnostic.isError, Problem.severity] at silent
          · rename_i first
            simp only [Checked.silent_bind] at silent
            obtain ⟨distinct, others⟩ := induction silent.2.1
            have own : decl.name ∉ seen := by simpa using first
            simp only [if_neg first, Checked.value_bind, Checked.value_pure, List.filterMap_cons,
              StateMember.handler?, List.map_cons, List.nodup_cons, check_handler_name,
              List.forall_mem_cons]
            refine ⟨⟨?_, distinct⟩, own, fun found inside => ?_⟩
            · intro repeated
              obtain ⟨found, inside, same⟩ := List.mem_map.mp repeated
              exact others found inside (same ▸ List.mem_cons_self)
            · exact fun member => others found inside (List.mem_cons_of_mem _ member)

theorem check_state_name (outlook : Outlook) (decl : StateDecl) :
    (checkState outlook decl).value.name = decl.name := by
  unfold checkState
  split <;> rfl

theorem check_state_distinct {outlook : Outlook} {decl : StateDecl}
    (silent : (checkState outlook decl).Silent) : (checkState outlook decl).value.events.Nodup := by
  unfold checkState at silent ⊢
  split at silent
  · simp [report, Checked.Silent, Diagnostic.isError, Problem.severity] at silent
  · rename_i some
    simp only [Checked.silent_bind] at silent
    rw [if_neg some]
    exact (check_members_distinct silent.1).1

/-- The states of a script that is checked without an error have names of their own, and handle no
event twice. -/
theorem check_declarations_distinct {library : Library} {script : Script} (sound : script.Sound)
    (silent : (checkDeclarations library script).Silent) :
    ((checkDeclarations library script).value.allStates.map StateDecl.name).Nodup ∧
      ∀ state ∈ (checkDeclarations library script).value.allStates, state.events.Nodup := by
  obtain ⟨globals, _, _, _, start, states, form⟩ :=
    check_declarations_silent (script.grants_traced library) sound silent
  simp only [checkDeclarations, Checked.silent_bind] at silent
  obtain ⟨_, first, others, _⟩ := silent
  obtain ⟨opened, single⟩ := declare_states_distinct first List.nodup_nil
  obtain ⟨_, distinct⟩ := declare_states_distinct others (opened.symm ▸ single)
  rw [opened] at distinct
  rw [form, Script.recorded]
  unfold Script.allStates
  cases initial : script.defaultState with
  | none =>
      rw [initial] at start
      simp [checkDefaultState, report, Checked.Silent, Diagnostic.isError, Problem.severity]
        at start
  | some decl =>
      simp only [initial, checkDefaultState, Checked.silent_bind] at start
      rw [initial] at distinct
      simp only [checkDefaultState, Checked.value_bind, Checked.value_pure, Option.toList_some,
        List.map_append, List.map_cons, List.map_nil, check_state_name, check_each_value,
        List.map_map, List.forall_mem_append, List.forall_mem_singleton]
      refine ⟨?_, check_state_distinct start.1, fun state member => ?_⟩
      · simpa [Function.comp_def, check_state_name] using distinct
      · obtain ⟨source, inside, rfl⟩ := List.mem_map.mp member
        exact check_state_distinct (check_each_silent states inside)

theorem Accepted.handled_nodup {library : Library} {source : String}
    (accepted : Accepted library source) : (checkSource library source).value.handled.Nodup := by
  obtain ⟨names, events⟩ := check_declarations_distinct accepted.sound accepted.silent
  rw [accepted.checked]
  refine List.nodup_flatMap.mpr ⟨fun state member => ?_, ?_⟩
  · exact (events state member).map fun _ _ same => congrArg Prod.snd same
  · refine (List.pairwise_map.mp names).imp fun other entry first second => ?_
    obtain ⟨_, _, rfl⟩ := List.mem_map.mp first
    obtain ⟨_, _, same⟩ := List.mem_map.mp second
    exact other (congrArg Prod.fst same).symm

end Lsl
