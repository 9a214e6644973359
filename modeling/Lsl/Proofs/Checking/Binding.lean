import Lsl.Proofs.Checking.Soundness

/-!
What checking binds in a whole script, whether it reports errors or not. The declarations stay
where they are and so does all that is mentioned; in a function or handler it is bound to something
declared there or outside of all functions and handlers, or to nothing.
-/

set_option autoImplicit false

namespace Lsl

theorem forall_flat_map {α β γ : Type} {related : β → γ → Prop} {list : List α} {first : α → List β}
    {second : α → List γ}
    (each : ∀ value ∈ list, List.Forall₂ related (first value) (second value)) :
    List.Forall₂ related (list.flatMap first) (list.flatMap second) := by
  induction list with
  | nil => exact .nil
  | cons value list induction =>
      rw [List.flatMap_cons, List.flatMap_cons]
      exact List.rel_append (each value List.mem_cons_self)
        (induction fun other member => each other (List.mem_cons_of_mem _ member))

/-- What is declared in the end was there before or is new. -/
theorem mem_declared {α : Type} {declared : List α} {new found : α} {faulty : Bool}
    (member : found ∈ if faulty then declared else declared ++ [new]) :
    found ∈ declared ∨ found = new := by
  split at member
  · exact .inl member
  · simpa using member

namespace Stmt

theorem referent_eq (stmt : Stmt) :
    stmt.referent? =
      (stmt.declaration?.map (⟨.inScope, ·⟩)).or (stmt.labelStart?.map (⟨.label, ·⟩)) := by
  cases stmt <;> rfl

theorem referent_check (frame : Frame) (stmt : Stmt) :
    (checkStmt frame stmt).value.referent? = stmt.referent? := by
  have keeps := keeps_check frame stmt
  rw [referent_eq, referent_eq, keeps.declaration, keeps.label]

theorem list_referents_check (frame : Frame) (body : List Stmt) :
    listReferents (checkStmts frame body).value = listReferents body := by
  induction body using Stmt.list_induction generalizing frame with
  | nil => rfl
  | cons stmt rest inner outer =>
      have parts : (stmt.parts.flatMap fun part => listReferents (part.checked frame).body) =
          stmt.parts.flatMap fun part => listReferents part.body :=
        List.flatMap_congr fun part member => inner part member _
      rw [value_check_cons, list_referents_cons, list_referents_cons, referent_check, parts_check,
        List.flatMap_map, parts, outer]

/-- What marks do not change, settling does not change. -/
theorem settled_eq {α : Type} (view : List Stmt → α)
    (blind : ∀ body, view (listMarked .live body) = view body) (body : List Stmt) :
    view (settleBody body).1 = view body := by
  rw [← blind, settleBody, list_marked_settle, blind]

theorem list_referents_marked (reach : Reachability) (body : List Stmt) :
    listReferents (listMarked reach body) = listReferents body := by
  rw [listReferents, list_statements_marked, List.filterMap_map, listReferents]
  refine List.filterMap_congr fun stmt _ => ?_
  cases stmt <;> rfl

theorem mentions_marked (reach : Reachability) (stmt : Stmt) :
    (stmt.marked reach).mentions = stmt.mentions := by
  cases stmt <;> simp [marked, mentions, mention?, exprs]

theorem list_mentions_marked (reach : Reachability) (body : List Stmt) :
    listMentions (listMarked reach body) = listMentions body := by
  rw [listMentions, list_statements_marked, List.flatMap_map, listMentions]
  exact List.flatMap_congr fun stmt _ => stmt.mentions_marked reach

/-- The labels of a body are declared in it. -/
theorem label_referent {scope : Nat} {body : List Stmt} {label : LabelPlace}
    (member : label ∈ listLabels scope body) : ⟨.label, label.start⟩ ∈ listReferents body := by
  induction body using Stmt.list_induction generalizing scope with
  | nil => simp [listLabels] at member
  | cons stmt rest inner outer =>
      rw [list_referents_cons, List.mem_append, List.mem_append, List.mem_flatMap]
      rcases List.mem_append.mp member with own | later
      · rcases labels_cases own with ⟨_, starts⟩ | ⟨part, partMember, inside⟩
        · refine .inl (.inl (Option.mem_toList.mpr ?_))
          have plain : stmt.declaration? = none := by
            cases stmt <;> simp_all [labelStart?, declaration?]
          rw [referent_eq, starts, plain]
          rfl
        · exact .inl (.inr ⟨part, partMember, inner part partMember inside⟩)
      · exact .inr (outer later)

end Stmt

namespace Frame.Offers

variable {frame : Frame} {offered : Referent → Prop} (offers : frame.Offers offered)

include offers

theorem enter (scope : ScopeInfo) : (frame.enter scope).Offers offered :=
  ⟨offers.view, offers.labels, offers.states⟩

theorem behind {stmt : Stmt} (declared : ∀ referent ∈ stmt.referent?, offered referent) :
    (frame.behind stmt).Offers offered := by
  unfold Frame.behind
  split
  · split
    · exact offers
    · refine ⟨⟨?_, offers.view.globals, offers.view.functions⟩, offers.labels, offers.states⟩
      intro found member
      rcases List.mem_cons.mp member with rfl | member
      · rintro referent ⟨⟩
        exact declared _ rfl
      · exact offers.view.locals found member
  · exact offers

end Frame.Offers

/-- All that is mentioned in checked statements is bound to something on offer in front of them or
declared among them, or to nothing. -/
theorem check_stmts_bind {frame : Frame} {offered : Referent → Prop} {body : List Stmt}
    (offers : frame.Offers offered)
    (declared : ∀ referent ∈ Stmt.listReferents body, offered referent) :
    Mention.AllBind offered (Stmt.listMentions body)
      (Stmt.listMentions (checkStmts frame body).value) := by
  induction body using Stmt.list_induction generalizing frame with
  | nil => exact .nil
  | cons stmt rest inner outer =>
      rw [Stmt.list_referents_cons, List.forall_mem_append, List.forall_mem_append] at declared
      obtain ⟨⟨own, parts⟩, others⟩ := declared
      rw [Stmt.value_check_cons, Stmt.list_mentions_cons, Stmt.list_mentions_cons, Stmt.parts_check,
        List.flatMap_map]
      refine ((check_stmt_binds offers stmt).append (forall_flat_map ?_)).append (outer ?_ others)
      · intro part member
        exact inner part member (offers.enter part.info) fun referent inside =>
          parts referent (List.mem_flatMap.mpr ⟨part, member, inside⟩)
      · refine offers.behind ?_
        rw [Stmt.referent_check]
        exact fun referent found => own referent (Option.mem_toList.mpr found)

/-- What every body of a script sees is on offer. -/
structure Outlook.Offers (outlook : Outlook) (offered : Referent → Prop) : Prop where
  globals : ∀ found ∈ outlook.view.globals, ∀ referent ∈ found.binding.referent?, offered referent
  functions : ∀ header ∈ outlook.view.functions, offered ⟨.function, header.start⟩
  states : ∀ name start, outlook.states.lookup name = some start → offered ⟨.state, start⟩

/-- The second is what checking makes of the first. -/
structure Routine.Becomes (common : Referent → Prop) (before after : Routine) : Prop where
  referents : after.referents = before.referents
  binds : Mention.AllBind (fun referent => common referent ∨ referent ∈ before.referents)
    before.mentions after.mentions

namespace Routine

variable {common : Referent → Prop} {before after : List Routine}

theorem become_referents (become : List.Forall₂ (Becomes common) before after) :
    after.flatMap referents = before.flatMap referents := by
  induction become with
  | nil => rfl
  | cons first _ induction => rw [List.flatMap_cons, List.flatMap_cons, first.referents, induction]

theorem become_places (become : List.Forall₂ (Becomes common) before after) :
    (after.flatMap mentions).map (·.place) = (before.flatMap mentions).map (·.place) := by
  induction become with
  | nil => rfl
  | cons first _ induction =>
      rw [List.flatMap_cons, List.flatMap_cons, List.map_append, List.map_append,
        first.binds.places, induction]

/-- In a function or handler nothing is bound to what another one declares. -/
theorem become_inside (become : List.Forall₂ (Becomes common) before after) :
    ∀ routine ∈ after, ∀ mention ∈ routine.mentions, ∀ referent ∈ mention.referent,
      common referent ∨ referent ∈ routine.referents := by
  induction become with
  | nil => simp
  | cons first _ induction =>
      exact List.forall_mem_cons.mpr ⟨first.referents ▸ first.binds.known, induction⟩

end Routine

theorem declare_parameters_referents {library : Library} {declared : List Visible}
    (members : List ParameterDecl) :
    (declareParameters library declared members).value.1.map ParameterDecl.referent =
      members.map ParameterDecl.referent := by
  induction members generalizing declared with
  | nil => rfl
  | cons decl members induction =>
      simp only [declareParameters, Checked.value_bind, Checked.value_pure, List.map_cons,
        induction]
      rfl

theorem declare_parameters_offered {library : Library} {declared : List Visible}
    {offered : Referent → Prop} {members : List ParameterDecl}
    (known : ∀ found ∈ declared, ∀ referent ∈ found.binding.referent?, offered referent)
    (given : ∀ decl ∈ members, offered decl.referent) :
    ∀ found ∈ (declareParameters library declared members).value.2,
      ∀ referent ∈ found.binding.referent?, offered referent := by
  induction members generalizing declared with
  | nil => exact known
  | cons decl members induction =>
      refine induction ?_ fun later member => given later (List.mem_cons_of_mem _ member)
      intro found member
      rcases mem_declared member with member | rfl
      · exact known found member
      · rintro referent ⟨⟩
        exact given decl List.mem_cons_self

theorem declare_functions_keep {library : Library} {declared : List FunctionHeader}
    (list : List FunctionDecl) :
    (declareFunctions library declared list).value.1.map FunctionDecl.referent =
        list.map FunctionDecl.referent ∧
      (declareFunctions library declared list).value.1.map FunctionDecl.routine =
        list.map FunctionDecl.routine := by
  induction list generalizing declared with
  | nil => exact ⟨rfl, rfl⟩
  | cons decl list induction =>
      simp only [declareFunctions, Checked.value_bind, Checked.value_pure, List.map_cons, induction]
      exact ⟨rfl, rfl⟩

theorem declare_functions_offered {library : Library} {declared : List FunctionHeader}
    {offered : Referent → Prop} {list : List FunctionDecl}
    (known : ∀ header ∈ declared, offered ⟨.function, header.start⟩)
    (given : ∀ decl ∈ list, offered decl.referent) :
    ∀ header ∈ (declareFunctions library declared list).value.2,
      offered ⟨.function, header.start⟩ := by
  induction list generalizing declared with
  | nil => exact known
  | cons decl list induction =>
      refine induction ?_ fun later member => given later (List.mem_cons_of_mem _ member)
      intro header member
      rcases mem_declared member with member | rfl
      · exact known header member
      · exact given decl List.mem_cons_self

theorem declare_states_keep {declared : List (String × Nat)} (list : List StateDecl) :
    (declareStates declared list).value.1.map StateDecl.referent = list.map StateDecl.referent ∧
      (declareStates declared list).value.1.map StateDecl.routines =
        list.map StateDecl.routines := by
  induction list generalizing declared with
  | nil => exact ⟨rfl, rfl⟩
  | cons decl list induction =>
      simp only [declareStates, Checked.value_bind, Checked.value_pure, List.map_cons, induction]
      exact ⟨rfl, rfl⟩

theorem declare_states_offered {declared : List (String × Nat)} {offered : Referent → Prop}
    {list : List StateDecl} (known : ∀ entry ∈ declared, offered ⟨.state, entry.2⟩)
    (given : ∀ decl ∈ list, offered decl.referent) :
    ∀ entry ∈ (declareStates declared list).value.2, offered ⟨.state, entry.2⟩ := by
  induction list generalizing declared with
  | nil => exact known
  | cons decl list induction =>
      refine induction ?_ fun later member => given later (List.mem_cons_of_mem _ member)
      intro entry member
      rcases mem_declared member with member | rfl
      · exact known entry member
      · exact given decl List.mem_cons_self

theorem check_globals_keep {view : View} (list : List GlobalDecl) :
    (checkGlobals view list).value.1.map GlobalDecl.referent = list.map GlobalDecl.referent := by
  induction list generalizing view with
  | nil => rfl
  | cons decl list induction =>
      simp only [checkGlobals, Checked.value_bind, Checked.value_pure, List.map_cons, induction]
      rfl

theorem check_global_initializer_binds {view : View} {offered : Referent → Prop}
    (offers : view.Offers offered) (type : ValueType) (name : String) (initializer : Expr) :
    Mention.AllBind offered initializer.mentions
      (checkGlobalInitializer view type name initializer).value.mentions := by
  unfold checkGlobalInitializer
  rw [Checked.value_bind, Expr.mentions_ite_blame]
  simpa [checkInitializer] using check_expr_binds offers initializer

theorem check_globals_bind {view : View} {offered : Referent → Prop} {list : List GlobalDecl}
    (offers : view.Offers offered) (given : ∀ decl ∈ list, offered decl.referent) :
    Mention.AllBind offered (list.flatMap GlobalDecl.mentions)
        ((checkGlobals view list).value.1.flatMap GlobalDecl.mentions) ∧
      ∀ found ∈ (checkGlobals view list).value.2,
        ∀ referent ∈ found.binding.referent?, offered referent := by
  induction list generalizing view with
  | nil => exact ⟨.nil, offers.globals⟩
  | cons decl list induction =>
      have own : Mention.AllBind offered decl.mentions
          ((checkOption (checkGlobalInitializer view decl.decl.type decl.decl.name)
            decl.decl.initializer).value.toList.flatMap Expr.mentions) :=
        check_option_binds fun value _ => check_global_initializer_binds offers _ _ value
      have extended : ∀ faulty : Bool, View.Offers (if faulty then view else
          { view with
            globals := view.globals ++
              [⟨decl.decl.name, decl.decl.type, .global decl.start⟩] }) offered := by
        intro faulty
        split
        · exact offers
        · refine ⟨offers.locals, ?_, offers.functions⟩
          intro found member
          rcases List.mem_append.mp member with member | member
          · exact offers.globals found member
          · obtain rfl := List.mem_singleton.mp member
            rintro referent ⟨⟩
            exact given decl List.mem_cons_self
      obtain ⟨others, known⟩ := induction (extended _) fun later member =>
        given later (List.mem_cons_of_mem _ member)
      exact ⟨own.append others, known⟩

section

variable {outlook : Outlook} {common : Referent → Prop} (offers : outlook.Offers common)

include offers

theorem check_body_becomes (owner : Owner) (parameters : ParameterList) (scope : ScopeInfo)
    (body : List Stmt) :
    let checked := (checkBody outlook owner parameters scope body).value
    Routine.Becomes common ⟨parameters, ⟨scope, body⟩⟩ ⟨checked.1, ⟨scope, checked.2⟩⟩ := by
  intro checked
  have known : ∀ label ∈ (declareLabels [] (Stmt.listLabels scope.id body)).value,
      label ∈ Stmt.listLabels scope.id body := fun label member => by
    simpa using declare_labels_subset [] _ label member
  constructor
  · simp only [Routine.referents, checked, checkBody, Checked.value_bind, Checked.value_pure,
      value_close_scope, declare_parameters_referents,
      Stmt.settled_eq _ (Stmt.list_referents_marked .live), Stmt.list_referents_check]
  · simp only [Routine.mentions, checked, checkBody, Checked.value_bind, Checked.value_pure,
      value_close_scope, Stmt.settled_eq _ (Stmt.list_mentions_marked .live)]
    refine check_stmts_bind ⟨⟨?_, ?_, ?_⟩, ?_, ?_⟩ ?_
    · refine declare_parameters_offered (by simp) fun decl member => .inr ?_
      exact List.mem_append_left _ (List.mem_map_of_mem member)
    · exact fun found member referent bound => .inl (offers.globals found member referent bound)
    · exact fun header member => .inl (offers.functions header member)
    · exact fun label member =>
        .inr (List.mem_append_right _ (Stmt.label_referent (known label member)))
    · exact fun name start found => .inl (offers.states name start found)
    · exact fun referent inside => .inr (List.mem_append_right _ inside)

theorem check_function_becomes (decl : FunctionDecl) :
    decl.routine.Becomes common (checkFunction outlook decl).value.routine :=
  check_body_becomes offers _ decl.parameters decl.scope decl.body

theorem check_handler_becomes (decl : HandlerDecl) :
    decl.routine.Becomes common (checkHandler outlook decl).value.routine :=
  check_body_becomes offers _ decl.parameters decl.scope decl.body

theorem check_members_become {state : String} {seen : List String} {members : List StateMember}
    (unbound : ∀ decl ∈ members.filterMap StateMember.handler?,
      ∀ mention ∈ decl.routine.mentions, mention.referent = none) :
    List.Forall₂ (Routine.Becomes common)
      ((members.filterMap StateMember.handler?).map HandlerDecl.routine)
      (((checkMembers outlook state seen members).value.filterMap StateMember.handler?).map
        HandlerDecl.routine) := by
  induction members generalizing seen with
  | nil => exact .nil
  | cons member members induction =>
      cases member with
      | broken span => exact induction unbound
      | handler decl =>
          obtain ⟨own, others⟩ := List.forall_mem_cons.mp unbound
          unfold checkMembers
          split
          · -- A second handler of one event stays as it was read.
            exact .cons ⟨rfl, .of_unbound own⟩ (induction others)
          · exact .cons (check_handler_becomes offers decl) (induction others)

theorem check_state_becomes {decl : StateDecl}
    (unbound : ∀ routine ∈ decl.routines, ∀ mention ∈ routine.mentions, mention.referent = none) :
    List.Forall₂ (Routine.Becomes common) decl.routines
      (checkState outlook decl).value.routines := by
  have read : ∀ handler ∈ decl.members.filterMap StateMember.handler?,
      ∀ mention ∈ handler.routine.mentions, mention.referent = none :=
    fun handler member => unbound handler.routine (List.mem_map_of_mem member)
  unfold checkState
  split
  · rename_i empty
    have none : decl.routines = [] := by
      simp [StateDecl.routines, StateDecl.handlers, List.isEmpty_iff.mp empty]
    have same : ({ decl with faulty := true } : StateDecl).routines = [] := none
    simp only [Checked.value_bind, Checked.value_pure, none, same]
    exact .nil
  · exact check_members_become offers read

end

theorem declare_first_state (initial : Option StateDecl) :
    (declareStates [] initial.toList).value.1.head?.toList =
      (declareStates [] initial.toList).value.1 := by
  cases initial <;> rfl

theorem check_default_states (outlook : Outlook) (span : Span) (initial : Option StateDecl) :
    (checkDefaultState outlook span initial).value.toList =
      initial.toList.map fun decl => (checkState outlook decl).value := by
  cases initial <;> rfl

theorem check_state_referent (outlook : Outlook) (decl : StateDecl) :
    (checkState outlook decl).value.referent = decl.referent := by
  unfold checkState
  split <;> rfl

namespace Script

/-- The functions of a script, each marked if it is refused, and the headers of the others. -/
def listedFunctions (library : Library) (script : Script) :
    List FunctionDecl × List FunctionHeader :=
  (declareFunctions library [] script.functions).value

/-- The states of a script, each marked if it is refused, and where the others start. -/
def listedStates (script : Script) : List StateDecl × List (String × Nat) :=
  let first := (declareStates [] script.defaultState.toList).value
  let others := (declareStates first.2 script.states).value
  (first.1 ++ others.1, others.2)

def listedGlobals (library : Library) (script : Script) : List GlobalDecl × List Visible :=
  let view : View :=
    { library
      functions := (script.listedFunctions library).2
      forthcoming := script.globals.map (·.decl.name) }
  (checkGlobals view script.globals).value

/-- What the bodies of a script see, whatever is wrong with its declarations. -/
def prospect (library : Library) (script : Script) : Outlook where
  view :=
    { library
      functions := (script.listedFunctions library).2
      globals := (script.listedGlobals library).2 }
  states := script.listedStates.2

variable (library : Library) (script : Script)

theorem listed_functions_keep :
    (script.listedFunctions library).1.map FunctionDecl.referent =
        script.functions.map FunctionDecl.referent ∧
      (script.listedFunctions library).1.map FunctionDecl.routine =
        script.functions.map FunctionDecl.routine :=
  declare_functions_keep _

theorem listed_states_keep :
    script.listedStates.1.map StateDecl.referent = script.allStates.map StateDecl.referent ∧
      script.listedStates.1.map StateDecl.routines = script.allStates.map StateDecl.routines := by
  simp [listedStates, allStates, declare_states_keep]

theorem check_declarations_globals :
    (checkDeclarations library script).value.globals = (script.listedGlobals library).1 :=
  rfl

theorem check_declarations_functions :
    (checkDeclarations library script).value.functions =
      (script.listedFunctions library).1.map fun decl =>
        (checkFunction (script.prospect library) decl).value :=
  check_each_value _ _

theorem check_declarations_states :
    (checkDeclarations library script).value.allStates =
      script.listedStates.1.map fun decl => (checkState (script.prospect library) decl).value := by
  have first : (checkDefaultState (script.prospect library) script.span
      (declareStates [] script.defaultState.toList).value.1.head?).value.toList =
        (declareStates [] script.defaultState.toList).value.1.map fun decl =>
          (checkState (script.prospect library) decl).value := by
    rw [check_default_states, declare_first_state]
  rw [listedStates, List.map_append, ← first, ← check_each_value]
  rfl

variable {library script}

theorem global_headers {decl : GlobalDecl} (member : decl ∈ script.globals) :
    decl.referent ∈ script.headers :=
  List.mem_append_left _ (List.mem_append_left _ (List.mem_map_of_mem member))

theorem function_headers {decl : FunctionDecl} (member : decl ∈ script.functions) :
    decl.referent ∈ script.headers :=
  List.mem_append_left _ (List.mem_append_right _ (List.mem_map_of_mem member))

theorem state_headers {decl : StateDecl} (member : decl ∈ script.allStates) :
    decl.referent ∈ script.headers :=
  List.mem_append_right _ (List.mem_map_of_mem member)

theorem listed_functions_offered :
    ∀ header ∈ (script.listedFunctions library).2, ⟨.function, header.start⟩ ∈ script.headers :=
  declare_functions_offered (by simp) fun _ => function_headers

theorem listed_globals_bind :
    Mention.AllBind (· ∈ script.headers) (script.globals.flatMap GlobalDecl.mentions)
        ((script.listedGlobals library).1.flatMap GlobalDecl.mentions) ∧
      ∀ found ∈ (script.listedGlobals library).2,
        ∀ referent ∈ found.binding.referent?, referent ∈ script.headers :=
  check_globals_bind ⟨by simp, by simp, listed_functions_offered⟩ fun _ => global_headers

theorem prospect_offers : (script.prospect library).Offers (· ∈ script.headers) := by
  have states : ∀ entry ∈ script.listedStates.2, ⟨.state, entry.2⟩ ∈ script.headers :=
    declare_states_offered
      (declare_states_offered (by simp) fun decl member =>
        state_headers (List.mem_append_left _ member))
      fun decl member => state_headers (List.mem_append_right _ member)
  refine ⟨listed_globals_bind.2, listed_functions_offered, fun name start found => ?_⟩
  obtain ⟨front, back, same, -⟩ := List.lookup_eq_some_iff.mp found
  have member : (name, start) ∈ (script.prospect library).states := by simp [same]
  exact states (name, start) member

/-- The second is what checking makes of the first. -/
structure Becomes (before after : Script) : Prop where
  headers : after.headers = before.headers
  globals : Mention.AllBind (· ∈ before.headers) (before.globals.flatMap GlobalDecl.mentions)
    (after.globals.flatMap GlobalDecl.mentions)
  routines : List.Forall₂ (Routine.Becomes (· ∈ before.headers)) before.routines after.routines

variable (library)

/-- Checking binds what is mentioned and keeps what is declared, whatever it reports. -/
theorem becomes_checked (unbound : ∀ mention ∈ script.mentions, mention.referent = none) :
    script.Becomes (checkDeclarations library script).value := by
  have offers : (script.prospect library).Offers (· ∈ script.headers) := script.prospect_offers
  constructor
  · have functions := (script.listed_functions_keep library).1
    have states := script.listed_states_keep.1
    simp only [headers, check_declarations_globals, check_declarations_functions,
      check_declarations_states, List.map_map, listedGlobals, check_globals_keep, ← functions,
      ← states]
    refine congrArg₂ _ (congrArg₂ _ rfl ?_) ?_
    · exact List.map_congr_left fun decl _ => rfl
    · exact List.map_congr_left fun decl _ => check_state_referent _ decl
  · exact listed_globals_bind.1
  · rw [routines, routines, check_declarations_functions, check_declarations_states]
    refine List.rel_append ?_ ?_
    · rw [← (script.listed_functions_keep library).2, List.map_map, List.forall₂_map_left_iff,
        List.forall₂_map_right_iff]
      exact List.forall₂_same.mpr fun decl _ => check_function_becomes offers decl
    · rw [List.flatMap_map, List.flatMap_def, ← script.listed_states_keep.2, ← List.flatMap_def]
      refine forall_flat_map fun decl member => check_state_becomes offers fun routine inside => ?_
      have origin : decl.routines ∈ script.allStates.map StateDecl.routines :=
        script.listed_states_keep.2 ▸ List.mem_map_of_mem member
      obtain ⟨source, found, same⟩ := List.mem_map.mp origin
      refine fun mention mentioned => unbound mention (List.mem_append_right _ ?_)
      refine List.mem_flatMap.mpr ⟨routine, List.mem_append_right _ ?_, mentioned⟩
      exact List.mem_flatMap.mpr ⟨source, found, same ▸ inside⟩

namespace Becomes

variable {before after : Script} (becomes : before.Becomes after)

include becomes

theorem referents : after.referents = before.referents := by
  rw [Script.referents, Script.referents, becomes.headers,
    Routine.become_referents becomes.routines]

theorem places : after.mentions.map (·.place) = before.mentions.map (·.place) := by
  rw [mentions, mentions, List.map_append, List.map_append, becomes.globals.places,
    Routine.become_places becomes.routines]

/-- Nothing is bound to what is not declared. -/
theorem closed : ∀ mention ∈ after.mentions, ∀ referent ∈ mention.referent,
    referent ∈ after.referents := by
  intro mention member referent bound
  rw [Script.referents, List.mem_append, becomes.headers]
  rcases List.mem_append.mp member with member | member
  · exact .inl (becomes.globals.known mention member referent bound)
  · obtain ⟨routine, own, member⟩ := List.mem_flatMap.mp member
    have near := Routine.become_inside becomes.routines routine own mention member referent bound
    exact near.imp_right fun within => List.mem_flatMap.mpr ⟨routine, own, within⟩

end Becomes

end Script

end Lsl
