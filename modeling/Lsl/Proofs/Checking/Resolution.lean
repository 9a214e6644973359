import Lsl.Proofs.Checking.Rules
import Lsl.Proofs.Checking.Spelling
import Lsl.Proofs.Checking.Spots

/-!
Static scoping. In an accepted script every name stands for the variable that is declared nearest to
it, for a parameter if there is none, then for a global, and then for a constant of the library.
-/

set_option autoImplicit false

namespace Lsl

/-- What the names in an expression may stand for: what the library and the script declare, the
parameters of the body, and the levels of the body around the expression. -/
structure Context where
  library : Library
  functions : List FunctionDecl := []
  globals : List GlobalDecl := []
  parameters : List ParameterDecl := []
  levels : List Level := []

/-- A statement in front of the spot declares a variable of the name directly in the level. -/
def Level.Declares (level : Level) (name : String) : Prop :=
  ∃ info decl, .declare info decl ∈ level.front ∧ decl.name = name

namespace Context

variable (context : Context)

inductive Denotes (name : String) : Binding → ValueType → Prop where
  | inLevel {near far : List Level} {level : Level} {info : StmtInfo} {decl : Variable}
      (around : context.levels = near ++ level :: far) (member : .declare info decl ∈ level.front)
      (named : decl.name = name) (nearest : ∀ inner ∈ near, ¬ inner.Declares name) :
      Denotes name (.inScope info.span.start.offset level.id) decl.type
  | parameter {decl : ParameterDecl} (unscoped : ∀ level ∈ context.levels, ¬ level.Declares name)
      (member : decl ∈ context.parameters) (named : decl.name = name) :
      Denotes name (.parameter decl.start) decl.type
  | global {global : GlobalDecl} (unscoped : ∀ level ∈ context.levels, ¬ level.Declares name)
      (unpassed : ∀ decl ∈ context.parameters, decl.name ≠ name)
      (member : global ∈ context.globals) (named : global.decl.name = name) :
      Denotes name (.global global.start) global.decl.type
  | constant {entry : LibraryConstant} (unscoped : ∀ level ∈ context.levels, ¬ level.Declares name)
      (unpassed : ∀ decl ∈ context.parameters, decl.name ≠ name)
      (undeclared : ∀ global ∈ context.globals, global.decl.name ≠ name)
      (known : context.library.constant? name = some entry) :
      Denotes name .constant entry.signature.type

/-- What is seen of the locals and parameters, the nearest first. -/
def locals : List Visible :=
  context.levels.flatMap Level.visible ++ context.parameters.map ParameterDecl.visible

/-- No two locals or parameters have one name, nor have two globals. -/
structure Distinct : Prop where
  locals : (context.locals.map (·.name)).Nodup
  globals : (context.globals.map (·.decl.name)).Nodup

def view (forthcoming : List String) : View where
  library := context.library
  functions := context.functions.map FunctionDecl.header
  globals := context.globals.map GlobalDecl.visible
  locals := context.locals
  forthcoming

end Context

theorem Level.mem_visible {level : Level} {found : Visible} :
    found ∈ level.visible ↔ ∃ info decl, .declare info decl ∈ level.front ∧
      found = ⟨decl.name, decl.type, .inScope info.span.start.offset level.id⟩ := by
  simp only [visible, List.mem_reverse, List.mem_filterMap]
  constructor
  · rintro ⟨stmt, member, seen⟩
    cases stmt with
    | declare info decl => exact ⟨info, decl, member, (Option.some.inj seen).symm⟩
    | _ => cases seen
  · rintro ⟨info, decl, member, rfl⟩
    exact ⟨_, member, rfl⟩

theorem Level.declares_iff {level : Level} {name : String} :
    level.Declares name ↔ ∃ found ∈ level.visible, found.name = name := by
  constructor
  · rintro ⟨info, decl, member, named⟩
    exact ⟨_, mem_visible.mpr ⟨info, decl, member, rfl⟩, named⟩
  · rintro ⟨found, member, named⟩
    obtain ⟨info, decl, inside, rfl⟩ := mem_visible.mp member
    exact ⟨info, decl, inside, named⟩

theorem find_visible {list : List Visible} (distinct : (list.map (·.name)).Nodup) {found : Visible}
    (member : found ∈ list) : list.find? (·.name == found.name) = some found := by
  obtain ⟨other, located⟩ : ∃ other, list.find? (·.name == found.name) = some other := by
    rw [← Option.isSome_iff_exists, List.find?_isSome]
    exact ⟨found, member, by simp⟩
  have same : other.name = found.name := by simpa using List.find?_some located
  rw [located, List.inj_on_of_nodup_map distinct (List.mem_of_find?_eq_some located) member same]

theorem View.resolve_cases {view : View} {name : String} {found : Visible}
    (resolved : view.resolve name = .ok found) :
    view.locals.find? (·.name == name) = some found ∨
      view.locals.find? (·.name == name) = none ∧
        (view.globals.find? (·.name == name) = some found ∨
          view.globals.find? (·.name == name) = none ∧ ∃ entry,
            view.library.constant? name = some entry ∧
              found = ⟨name, entry.signature.type, .constant⟩) := by
  unfold resolve declared? at resolved
  cases near : view.locals.find? (·.name == name) with
  | some nearest =>
      simp only [near] at resolved
      exact .inl (congrArg some (Except.ok.inj resolved))
  | none =>
      simp only [near] at resolved
      refine .inr ⟨rfl, ?_⟩
      cases far : view.globals.find? (·.name == name) with
      | some outer =>
          simp only [far] at resolved
          exact .inl (congrArg some (Except.ok.inj resolved))
      | none =>
          simp only [far] at resolved
          split at resolved
          · cases resolved
          · cases known : view.library.constant? name with
            | none => simp [constant?, known] at resolved
            | some entry =>
                simp only [constant?, known, Option.map_some] at resolved
                exact .inr ⟨rfl, entry, rfl, (Except.ok.inj resolved).symm⟩

namespace Context

variable {context : Context} {name : String}

theorem no_local_iff :
    context.locals.find? (·.name == name) = none ↔
      (∀ level ∈ context.levels, ¬ level.Declares name) ∧
        ∀ decl ∈ context.parameters, decl.name ≠ name := by
  simp only [List.find?_eq_none, locals, List.mem_append, or_imp, forall_and, List.mem_flatMap,
    List.forall_mem_map, beq_iff_eq, forall_exists_index, and_imp, Level.declares_iff, not_exists,
    not_and, ParameterDecl.visible]
  exact and_congr_left fun _ =>
    ⟨fun free level inside found member => free found level inside member,
      fun free found level inside member => free level inside found member⟩

theorem Denotes.resolved {binding : Binding} {type : ValueType}
    (denotes : context.Denotes name binding type) (distinct : context.Distinct) :
    (match (context.view []).declared? name with
      | some found => some found
      | none => (context.view []).constant? name) = some ⟨name, type, binding⟩ := by
  have globals : ((context.globals.map GlobalDecl.visible).map (·.name)).Nodup := by
    rw [List.map_map]
    exact distinct.globals
  cases denotes with
  | @inLevel near far level info decl around member named nearest =>
      subst named
      have found : ⟨decl.name, decl.type, .inScope info.span.start.offset level.id⟩ ∈
          context.locals := by
        refine List.mem_append_left _ (List.mem_flatMap.mpr ⟨level, ?_, ?_⟩)
        · rw [around]
          exact List.mem_append_right _ List.mem_cons_self
        · exact Level.mem_visible.mpr ⟨info, decl, member, rfl⟩
      simp only [view, View.declared?, find_visible distinct.locals found]
  | @parameter decl unscoped member named =>
      subst named
      have found : decl.visible ∈ context.locals :=
        List.mem_append_right _ (List.mem_map_of_mem member)
      have located := find_visible distinct.locals found
      simp only [ParameterDecl.visible] at located
      simp only [view, View.declared?, located]
  | @global global unscoped unpassed member named =>
      subst named
      have located := find_visible globals (List.mem_map_of_mem member)
      simp only [GlobalDecl.visible] at located
      simp only [view, View.declared?, no_local_iff.mpr ⟨unscoped, unpassed⟩, located]
  | @constant entry unscoped unpassed undeclared known =>
      have none : (context.globals.map GlobalDecl.visible).find? (·.name == name) = .none := by
        simpa [GlobalDecl.visible] using undeclared
      simp only [view, View.declared?, no_local_iff.mpr ⟨unscoped, unpassed⟩, none,
        View.constant?, known, Option.map_some]

theorem Denotes.unique (distinct : context.Distinct) {first second : Binding}
    {firstType secondType : ValueType} (one : context.Denotes name first firstType)
    (other : context.Denotes name second secondType) : second = first ∧ secondType = firstType := by
  have same := (other.resolved distinct).symm.trans (one.resolved distinct)
  obtain ⟨-, type, binding⟩ := Visible.mk.inj (Option.some.inj same)
  exact ⟨binding, type⟩

theorem denotes_of_local (distinct : context.Distinct) {found : Visible}
    (member : found ∈ context.locals) : context.Denotes found.name found.binding found.type := by
  have apart := distinct.locals
  rcases List.mem_append.mp member with inside | inside
  · obtain ⟨level, among, seen⟩ := List.mem_flatMap.mp inside
    obtain ⟨near, far, around⟩ := List.append_of_mem among
    obtain ⟨info, decl, declared, rfl⟩ := Level.mem_visible.mp seen
    refine .inLevel around declared rfl ?_
    intro inner nearer declares
    obtain ⟨other, otherSeen, same⟩ := Level.declares_iff.mp declares
    rw [locals, around, List.flatMap_append, List.flatMap_cons, List.append_assoc,
      List.append_assoc, List.map_append, List.nodup_append] at apart
    refine apart.2.2 _ ?_ decl.name ?_ same
    · exact List.mem_map_of_mem (List.mem_flatMap.mpr ⟨inner, nearer, otherSeen⟩)
    · exact List.mem_map.mpr ⟨_, List.mem_append_left _ seen, rfl⟩
  · obtain ⟨decl, among, rfl⟩ := List.mem_map.mp inside
    refine .parameter ?_ among rfl
    intro level around declares
    obtain ⟨other, otherSeen, same⟩ := Level.declares_iff.mp declares
    rw [locals, List.map_append, List.nodup_append] at apart
    refine apart.2.2 _ ?_ decl.name ?_ same
    · exact List.mem_map_of_mem (List.mem_flatMap.mpr ⟨level, around, otherSeen⟩)
    · exact List.mem_map.mpr ⟨_, inside, rfl⟩

theorem denotes_of_resolved (distinct : context.Distinct) {forthcoming : List String}
    {found : Visible} (resolved : (context.view forthcoming).resolve name = .ok found) :
    context.Denotes name found.binding found.type := by
  rcases View.resolve_cases resolved with near | ⟨absent, far | ⟨unknown, entry, known, rfl⟩⟩
  · obtain rfl : found.name = name := by simpa using List.find?_some near
    exact denotes_of_local distinct (List.mem_of_find?_eq_some near)
  · obtain ⟨unscoped, unpassed⟩ := no_local_iff.mp absent
    have named : found.name = name := by simpa using List.find?_some far
    obtain ⟨global, inside, rfl⟩ := List.mem_map.mp (List.mem_of_find?_eq_some far)
    exact .global unscoped unpassed inside named
  · obtain ⟨unscoped, unpassed⟩ := no_local_iff.mp absent
    refine .constant unscoped unpassed ?_ known
    simpa [view, GlobalDecl.visible] using unknown

end Context

/-- The names in an expression are bound to what they denote, and have its type. -/
def Expr.NamedIn (context : Context) (expr : Expr) : Prop :=
  ∀ info name binding, .reference info name binding ∈ expr.nodes →
    ∃ type, info.type = some type ∧ context.Denotes name binding type ∧
      ∀ other otherType, context.Denotes name other otherType → other = binding ∧ otherType = type

/-- The names in a body are bound to what they denote where they stand, and nowhere in the body are
two locals or parameters of one name visible. -/
structure CodeScope.NamedIn (context : Context) (body : CodeScope) : Prop where
  placed : ∀ stmt ∈ Stmt.listStatements body.body,
    ∃ levels back, Spot body.info.id body.body levels (stmt :: back)
  single : ∀ levels back, Spot body.info.id body.body levels back →
    (Context.locals { context with levels } |>.map (·.name)).Nodup
  named : ∀ levels stmt back, Spot body.info.id body.body levels (stmt :: back) →
    ∀ expr ∈ stmt.exprs, expr.NamedIn { context with levels }

theorem Expr.named_of_typed {context : Context} (distinct : context.Distinct)
    {forthcoming : List String} {expr : Expr}
    (typed : ∀ node ∈ expr.nodes, node.IsTyped (context.view forthcoming)) :
    expr.NamedIn context := by
  intro info name binding member
  obtain ⟨found, resolved, type, rfl⟩ := typed _ member
  have denotes := Context.denotes_of_resolved distinct resolved
  exact ⟨found.type, type, denotes, fun _ _ other => denotes.unique distinct other⟩

/-- What a script declares outside of its bodies. -/
def Script.context (library : Library) (script : Script) : Context where
  library
  functions := script.functions
  globals := script.globals

theorem Stmt.Seen.holds {view : View} {owner : Owner} {parameters : ParameterList}
    {levels : List Level} {near : Frame} {rest back : List Stmt} {stmt : Stmt}
    (seen : Seen view owner parameters levels near rest (stmt :: back)) :
    stmt.Holds fun node => node.Firm ∧ node.IsTyped near.view := by
  obtain ⟨source, silent, sound, labels, same⟩ := seen.head
  have yields : near.view.Yields fun node => node.Firm ∧ node.IsTyped near.view :=
    fun _ sound silent => Expr.typed_check sound silent
  exact (holds_check_stmt yields sound labels silent).of_marked same.symm

theorem Script.grants_typed (library : Library) (script : Script) :
    script.Grants library
      (fun seen node => node.Firm ∧ node.IsTyped (script.dawn library seen))
      fun _ _ node => node.Traced (script.outlook library).view where
  yields := fun _ _ _ sound silent => Expr.typed_check sound silent
  admits := (script.grants_traced library).admits
  before := fun _ _ known => known.1.whole
  inside := (script.grants_traced library).inside

namespace Accepted

variable {library : Library} {source : String} (accepted : Accepted library source)

include accepted

theorem spot_context {owner : Owner} {parameters : ParameterList} {body : CodeScope}
    (passed : body.Passed ((parse (tokenize source)).1.outlook library) owner parameters)
    {levels : List Level} {back : List Stmt} (spot : Spot body.info.id body.body levels back) :
    let around : Context := { (checkSource library source).value.context library with
      parameters := parameters.members
      levels }
    around.Distinct ∧ ∃ near rest,
      Stmt.Seen ((checkSource library source).value.outlook library).view owner parameters levels
        near rest back ∧ near.view = around.view [] := by
  obtain ⟨near, rest, seen⟩ := passed.seen spot
  have distinct := seen.visits.distinct
  rw [← accepted.view] at seen
  rw [seen.view] at distinct
  exact ⟨⟨distinct, accepted.traced.globals⟩, near, rest, seen, seen.view⟩

theorem initializer_context {front back : List GlobalDecl} {global : GlobalDecl}
    (split : (checkSource library source).value.globals = front ++ global :: back)
    {value : Expr} (given : value ∈ global.decl.initializer) :
    let around : Context :=
      { (checkSource library source).value.context library with globals := front }
    around.Distinct ∧ ∃ forthcoming, ∀ node ∈ value.nodes,
      node.Firm ∧ node.IsTyped (around.view forthcoming) := by
  have distinct := accepted.traced.globals
  rw [split, List.map_append] at distinct
  refine ⟨⟨List.nodup_nil, (List.nodup_append.mp distinct).1⟩, ?_⟩
  obtain ⟨holds, _, functions⟩ := check_declarations_holds
    ((parse (tokenize source)).1.grants_typed library) accepted.sound accepted.silent
  rw [← accepted.checked] at holds functions
  have typed := (holds.globals front global back split).value value given
  rw [Script.dawn, ← functions] at typed
  exact ⟨_, typed⟩

theorem body_named {owner : Owner} {parameters : ParameterList} {body : CodeScope}
    (passed : body.Passed ((parse (tokenize source)).1.outlook library) owner parameters) :
    body.NamedIn { (checkSource library source).value.context library with
      parameters := parameters.members } where
  placed := fun _ inside => Spot.of_statement _ inside
  single := fun _ _ spot => (accepted.spot_context passed spot).1.locals
  named := by
    intro levels stmt back spot expr member
    obtain ⟨distinct, near, rest, seen, view⟩ := accepted.spot_context passed spot
    have typed := seen.holds.exprs expr member
    rw [view] at typed
    exact Expr.named_of_typed distinct fun node inside => (typed node inside).2

end Accepted

/-- In an accepted source, every name in a body is bound to the variable of that name declared in the
nearest scope around it, in front of the statement it stands in; or else to the parameter of that
name, to the global of that name or to the constant of that name. No two locals or parameters of one
name are ever visible together. A name in an initializer of a global can stand for a global in front
of that one only. -/
theorem accepted_names_scoped {library : Library} {source : String}
    (accepted : Accepted library source) :
    let script := (checkSource library source).value
    let context := script.context library
    (∀ decl ∈ script.functions,
      decl.ownScope.NamedIn { context with parameters := decl.parameters.members }) ∧
    (∀ state ∈ script.allStates, ∀ decl ∈ state.handlers,
      decl.ownScope.NamedIn { context with parameters := decl.parameters.members }) ∧
    ∀ front global back, script.globals = front ++ global :: back →
      ∀ value ∈ global.decl.initializer, value.NamedIn { context with globals := front } := by
  intro script context
  refine ⟨?_, ?_, ?_⟩
  · exact fun decl member => accepted.body_named (accepted.function_passed member)
  · exact fun state inside decl member =>
      accepted.body_named (accepted.handler_passed inside member)
  · intro front global back split value given
    obtain ⟨distinct, forthcoming, typed⟩ := accepted.initializer_context split given
    exact Expr.named_of_typed distinct fun node inside => (typed node inside).2

/-- A name stands for a global up to the declaration of a local that hides it from there on. -/
theorem hidden_global_scoped :
    let source := "integer n = 1; integer m = n; default \x7b state_entry() \x7b " ++
      "integer k = n; string n; \x7b n = (string)(k + m); \x7d \x7d \x7d"
    let script := (checkSource .minimal source).value
    Accepted .minimal source ∧ ∃ state ∈ script.allStates, ∃ decl ∈ state.handlers,
      ((Stmt.bodyExprs decl.body).flatMap Expr.nodes).filterMap (fun node =>
        match node with
        | .reference _ name binding => some (name, binding)
        | _ => none) =
        [("n", .global 0), ("n", .inScope 71 1024), ("k", .inScope 56 1024), ("m", .global 15)] ∧
      decl.ownScope.NamedIn { script.context .minimal with
        parameters := decl.parameters.members } := by
  intro source script
  have spelled : source = String.ofList _ := String.ofList_append.symm
  have facts : Accepted .minimal source ∧ ∃ state ∈ script.allStates, ∃ decl ∈ state.handlers,
      ((Stmt.bodyExprs decl.body).flatMap Expr.nodes).filterMap (fun node =>
        match node with
        | .reference _ name binding => some (name, binding)
        | _ => none) =
        [("n", .global 0), ("n", .inScope 71 1024), ("k", .inScope 56 1024), ("m", .global 15)] := by
    simp only [Accepted, script, check_source_spelled spelled]
    decide +kernel
  obtain ⟨accepted, state, inside, decl, member, names⟩ := facts
  exact ⟨accepted, state, inside, decl, member, names,
    (accepted_names_scoped accepted).2.1 state inside decl member⟩

end Lsl
