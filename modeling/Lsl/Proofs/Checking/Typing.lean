import Lsl.Proofs.Checking.Resolution
import Lsl.Proofs.Checking.Spelling

/-!
The typing rules, stated over the text of expressions and what their names denote. In an accepted
script every node has the type that the rules give it, and no other; initial values, conditions and
what is returned have a type that does.
-/

set_option autoImplicit false

namespace Lsl

namespace Context

/-- A variable or a component of one, unless its name stands for a constant of the library. -/
def Assignable (context : Context) : Expr → Prop
  | .reference _ name _ => ∃ binding type, context.Denotes name binding type ∧ binding ≠ .constant
  | .component _ _ target => context.Assignable target
  | _ => False

/-- The rules. They look neither at the types that are recorded nor at what names and calls are bound
to. -/
inductive HasType (context : Context) : Expr → ValueType → Prop where
  | integer {info : ExprInfo} {raw : String} : HasType context (.integer info raw) .integer
  | hex {info : ExprInfo} {raw : String} : HasType context (.hex info raw) .integer
  | float {info : ExprInfo} {raw : String} : HasType context (.float info raw) .float
  | string {info : ExprInfo} {raw : String} : HasType context (.string info raw) .string
  | vector {info : ExprInfo} {x y z : Expr} (types : Expr → ValueType)
      (typed : ∀ part ∈ [x, y, z], HasType context part (types part))
      (fits : ∀ part ∈ [x, y, z], (types part).convertsTo .float = true) :
      HasType context (.vector info x y z) .vector
  | rotation {info : ExprInfo} {x y z s : Expr} (types : Expr → ValueType)
      (typed : ∀ part ∈ [x, y, z, s], HasType context part (types part))
      (fits : ∀ part ∈ [x, y, z, s], (types part).convertsTo .float = true) :
      HasType context (.rotation info x y z s) .rotation
  | list {info : ExprInfo} {inner : Span} {elements : List Expr} (types : Expr → ValueType)
      (typed : ∀ element ∈ elements, HasType context element (types element))
      (fits : ∀ element ∈ elements, (types element).isListElement = true) :
      HasType context (.list info inner elements) .list
  | reference {info : ExprInfo} {name : String} {recorded binding : Binding} {type : ValueType}
      (denotes : context.Denotes name binding type) :
      HasType context (.reference info name recorded) type
  | call {info : ExprInfo} {name : String} {inner : Span} {arguments : List Expr}
      {recorded : CallTarget} {decl : FunctionDecl} (types : Expr → ValueType)
      (typed : ∀ argument ∈ arguments, HasType context argument (types argument))
      (member : decl ∈ context.functions) (named : decl.name = name)
      (fits : List.Forall₂ (fun given wanted => given.convertsTo wanted = true)
        (arguments.map types) (decl.parameters.members.map (·.type))) :
      HasType context (.call info name inner arguments recorded) decl.returns
  | libraryCall {info : ExprInfo} {name : String} {inner : Span} {arguments : List Expr}
      {recorded : CallTarget} {overload : LibraryFunction} (types : Expr → ValueType)
      (typed : ∀ argument ∈ arguments, HasType context argument (types argument))
      (own : ∀ decl ∈ context.functions, decl.name ≠ name)
      (resolved : context.library.resolve? name (arguments.map types) = some overload) :
      HasType context (.call info name inner arguments recorded) overload.signature.returns
  | assignment {info : ExprInfo} {operator : BinaryOperator} {left right : Expr}
      {leftType rightType type : ValueType} (assigns : operator.isAssignment = true)
      (target : context.Assignable left) (leftTyped : HasType context left leftType)
      (rightTyped : HasType context right rightType)
      (result : operator.assignedResult? leftType rightType = some type) :
      HasType context (.binary info operator left right) type
  | binary {info : ExprInfo} {operator : BinaryOperator} {left right : Expr}
      {leftType rightType type : ValueType} (plain : operator.isAssignment = false)
      (leftTyped : HasType context left leftType) (rightTyped : HasType context right rightType)
      (result : operator.result? leftType rightType = some type) :
      HasType context (.binary info operator left right) type
  | step {info : ExprInfo} {operator : PrefixOperator} {operand : Expr}
      {operandType type : ValueType} (steps : operator.isStep = true)
      (target : context.Assignable operand) (typed : HasType context operand operandType)
      (result : operator.result? operandType = some type) :
      HasType context (.prefixed info operator operand) type
  | prefixed {info : ExprInfo} {operator : PrefixOperator} {operand : Expr}
      {operandType type : ValueType} (plain : operator.isStep = false)
      (typed : HasType context operand operandType)
      (result : operator.result? operandType = some type) :
      HasType context (.prefixed info operator operand) type
  | postfixed {info : ExprInfo} {operator : PostfixOperator} {operand : Expr}
      {operandType type : ValueType} (target : context.Assignable operand)
      (typed : HasType context operand operandType)
      (result : operator.result? operandType = some type) :
      HasType context (.postfixed info operator operand) type
  | cast {info : ExprInfo} {target source : ValueType} {operand : Expr}
      (typed : HasType context operand source) (casts : source.castsTo target = true) :
      HasType context (.cast info target operand) target
  | grouped {info : ExprInfo} {inner : Expr} {type : ValueType}
      (typed : HasType context inner type) : HasType context (.grouped info inner) type
  | component {info : ExprInfo} {part : Component} {target : Expr} {type : ValueType}
      (typed : HasType context target type) (present : part.existsOn type = true) :
      HasType context (.component info part target) .float

variable {context : Context}

theorem HasType.unique (distinct : context.Distinct)
    (functions : (context.functions.map (·.name)).Nodup) {expr : Expr} {first second : ValueType}
    (one : context.HasType expr first) (other : context.HasType expr second) :
    second = first := by
  induction expr using Expr.parts_induction generalizing first second with
  | step expr induction =>
      -- The parts of a node have one type each, so the node has what goes with these.
      have same (part : Expr) (member : part ∈ expr.parts) {left right : ValueType}
          (one : context.HasType part left) (other : context.HasType part right) : right = left :=
        induction part member one other
      have lists {arguments : List Expr} (own : ∀ argument ∈ arguments, argument ∈ expr.parts)
          {types others : Expr → ValueType}
          (one : ∀ argument ∈ arguments, context.HasType argument (types argument))
          (other : ∀ argument ∈ arguments, context.HasType argument (others argument)) :
          arguments.map others = arguments.map types :=
        List.map_congr_left fun argument member =>
          same argument (own argument member) (one argument member) (other argument member)
      cases one with
      | integer | hex | float | string | vector | rotation | list | cast | component =>
          cases other
          rfl
      | reference denotes =>
          cases other with
          | reference others => exact (denotes.unique distinct others).2
      | @call info name inner arguments recorded decl types typed member named fits =>
          cases other with
          | @call _ _ _ _ _ found _ _ inside called _ =>
              have equal := List.inj_on_of_nodup_map functions inside member
                (called.trans named.symm)
              rw [equal]
          | libraryCall _ _ own _ => exact absurd named (own decl member)
      | @libraryCall info name inner arguments recorded overload types typed own resolved =>
          cases other with
          | @call _ _ _ _ _ found _ _ inside called _ => exact absurd called (own found inside)
          | libraryCall others othersTyped _ found =>
              have equal : arguments.map others = arguments.map types :=
                lists (fun _ member => member) typed othersTyped
              rw [equal, resolved] at found
              rw [Option.some.inj found]
      | @assignment info operator left right _ _ _ assigns _ leftTyped rightTyped result =>
          cases other with
          | assignment _ _ leftOther rightOther found =>
              rw [same left (by simp [Expr.parts]) leftTyped leftOther,
                same right (by simp [Expr.parts]) rightTyped rightOther, result] at found
              exact (Option.some.inj found).symm
          | binary plain _ _ _ => simp [assigns] at plain
      | @binary info operator left right _ _ _ plain leftTyped rightTyped result =>
          cases other with
          | assignment assigns _ _ _ _ => simp [plain] at assigns
          | binary _ leftOther rightOther found =>
              rw [same left (by simp [Expr.parts]) leftTyped leftOther,
                same right (by simp [Expr.parts]) rightTyped rightOther, result] at found
              exact (Option.some.inj found).symm
      | @step info operator operand _ _ _ _ typed result =>
          cases other with
          | step _ _ others found | prefixed _ others found =>
              rw [same operand (by simp [Expr.parts]) typed others, result] at found
              exact (Option.some.inj found).symm
      | @prefixed info operator operand _ _ _ typed result =>
          cases other with
          | step _ _ others found | prefixed _ others found =>
              rw [same operand (by simp [Expr.parts]) typed others, result] at found
              exact (Option.some.inj found).symm
      | @postfixed info operator operand _ _ _ typed result =>
          cases other with
          | postfixed _ others found =>
              rw [same operand (by simp [Expr.parts]) typed others, result] at found
              exact (Option.some.inj found).symm
      | @grouped info inner _ typed =>
          cases other with
          | grouped others => exact same inner (by simp [Expr.parts]) typed others

theorem assignable_of_writable (distinct : context.Distinct) {forthcoming : List String}
    {expr : Expr} (typed : ∀ node ∈ expr.nodes, node.IsTyped (context.view forthcoming))
    (writable : expr.isWritable = true) : context.Assignable expr := by
  induction expr using Expr.parts_induction with
  | step expr induction =>
      cases expr with
      | reference info name binding =>
          obtain ⟨found, resolved, _, rfl⟩ := typed _ (Expr.mem_nodes_self _)
          exact ⟨_, _, denotes_of_resolved distinct resolved, by simpa [Expr.isWritable] using writable⟩
      | component info part target =>
          have own : target ∈ (Expr.component info part target).parts := by simp [Expr.parts]
          exact induction target own
            (fun node inside => typed node (Expr.mem_nodes_of_part own inside)) writable
      | _ => cases writable

theorem has_type_of_calls {forthcoming : List String} {info : ExprInfo} {name : String}
    {inner : Span} {arguments : List Expr} {target : CallTarget} {type : ValueType}
    (calls : (context.view forthcoming).Calls name (arguments.map Expr.type) target type)
    (typed : ∀ argument ∈ arguments, context.HasType argument argument.type) :
    context.HasType (.call info name inner arguments target) type := by
  cases calls with
  | @script header found fits =>
      obtain ⟨decl, member, rfl⟩ := List.mem_map.mp (List.mem_of_find?_eq_some found)
      have named : decl.name = name := by simpa [FunctionDecl.header] using List.find?_some found
      exact .call Expr.type typed member named fits
  | library own resolved =>
      refine .libraryCall Expr.type typed ?_ resolved
      simpa [view, View.function?, FunctionDecl.header] using own

theorem has_type_of_typed (wellFormed : context.library.WellFormed) (distinct : context.Distinct)
    {forthcoming : List String} {expr : Expr}
    (typed : ∀ node ∈ expr.nodes, node.Firm ∧ node.IsTyped (context.view forthcoming)) :
    context.HasType expr expr.type := by
  induction expr using Expr.parts_induction with
  | step expr induction =>
      obtain ⟨firm, rule⟩ := typed expr (Expr.mem_nodes_self expr)
      have nodes (part : Expr) (member : part ∈ expr.parts) :
          ∀ node ∈ part.nodes, node.Firm ∧ node.IsTyped (context.view forthcoming) :=
        fun node inside => typed node (Expr.mem_nodes_of_part member inside)
      have parts (part : Expr) (member : part ∈ expr.parts) : context.HasType part part.type :=
        induction part member (nodes part member)
      have assignable (part : Expr) (member : part ∈ expr.parts) (writable : part.isWritable = true) :
          context.Assignable part :=
        assignable_of_writable distinct (fun node inside => (nodes part member node inside).2) writable
      obtain ⟨type, known⟩ := Option.isSome_iff_exists.mp firm.typed
      rw [Expr.type_of_known known]
      cases expr with
      | integer info raw =>
          obtain rfl := Option.some.inj (known.symm.trans rule)
          exact .integer
      | hex info raw =>
          obtain rfl := Option.some.inj (known.symm.trans rule)
          exact .hex
      | float info raw =>
          obtain rfl := Option.some.inj (known.symm.trans rule)
          exact .float
      | string info raw =>
          obtain rfl := Option.some.inj (known.symm.trans rule)
          exact .string
      | vector info x y z =>
          obtain rfl := Option.some.inj (known.symm.trans rule.1)
          exact .vector Expr.type parts rule.2
      | rotation info x y z s =>
          obtain rfl := Option.some.inj (known.symm.trans rule.1)
          exact .rotation Expr.type parts rule.2
      | list info inner elements =>
          obtain rfl := Option.some.inj (known.symm.trans rule.1)
          exact .list Expr.type parts rule.2
      | reference info name binding =>
          obtain ⟨found, resolved, recorded, rfl⟩ := rule
          obtain rfl := Option.some.inj (known.symm.trans recorded)
          exact .reference (denotes_of_resolved distinct resolved)
      | call info name inner arguments target =>
          obtain ⟨result, recorded, calls⟩ := rule wellFormed
          obtain rfl := Option.some.inj (known.symm.trans recorded)
          exact has_type_of_calls calls parts
      | binary info operator left right =>
          have result := rule.1.symm.trans known
          have first := parts left (by simp [Expr.parts])
          have second := parts right (by simp [Expr.parts])
          cases assigns : operator.isAssignment with
          | true =>
              simp only [BinaryOperator.type?, assigns, if_true] at result
              exact .assignment assigns (assignable left (by simp [Expr.parts]) (rule.2 assigns))
                first second result
          | false =>
              simp only [BinaryOperator.type?, assigns, Bool.false_eq_true, if_false] at result
              exact .binary assigns first second result
      | prefixed info operator operand =>
          have result := rule.1.symm.trans known
          have inner := parts operand (by simp [Expr.parts])
          cases steps : operator.isStep with
          | true =>
              exact .step steps (assignable operand (by simp [Expr.parts]) (rule.2 steps)) inner result
          | false => exact .prefixed steps inner result
      | postfixed info operator operand =>
          exact .postfixed (assignable operand (by simp [Expr.parts]) rule.2)
            (parts operand (by simp [Expr.parts])) (rule.1.symm.trans known)
      | cast info target operand =>
          obtain rfl := Option.some.inj (known.symm.trans rule.1)
          exact .cast (parts operand (by simp [Expr.parts])) rule.2
      | grouped info inner =>
          have own := parts inner (by simp [Expr.parts])
          rw [Expr.type_of_known (rule.symm.trans known)] at own
          exact .grouped own
      | component info part target =>
          obtain rfl := Option.some.inj (known.symm.trans rule.1)
          exact .component (parts target (by simp [Expr.parts])) rule.2

end Context

/-- Every node of an expression has the type that the rules give it, and they give it no other. -/
def Expr.TypedIn (context : Context) (expr : Expr) : Prop :=
  ∀ node ∈ expr.nodes, ∃ type, node.type? = some type ∧ context.HasType node type ∧
    ∀ other, context.HasType node other → other = type

theorem Expr.typed_in {context : Context} (wellFormed : context.library.WellFormed)
    (distinct : context.Distinct) (functions : (context.functions.map (·.name)).Nodup)
    {forthcoming : List String} {expr : Expr}
    (typed : ∀ node ∈ expr.nodes, node.Firm ∧ node.IsTyped (context.view forthcoming)) :
    expr.TypedIn context := by
  intro node inside
  obtain ⟨type, known⟩ := Option.isSome_iff_exists.mp (typed node inside).1.typed
  have given := Context.has_type_of_typed wellFormed distinct fun found member =>
    typed found (Expr.mem_nodes_trans inside member)
  rw [Expr.type_of_known known] at given
  exact ⟨type, known, given, fun other => given.unique distinct functions⟩

namespace Stmt

/-- What a statement asks of the types of its expressions: an initial value converts to the type of
its variable, what a function returns to the type that it declares, and a condition has a value. -/
def Fits (owner : Owner) : Stmt → Prop
  | declare _ decl => ∀ value ∈ decl.initializer, value.type.convertsTo decl.type = true
  | giveBack _ value =>
    match owner, value with
    | .function _ returns, some value => value.type.convertsTo returns = true
    | .function _ returns, none => returns = .void
    | .handler _, _ => True
  | branch _ _ condition _ _ rest => ∀ tested ∈ condition :: rest.conditions, tested.type ≠ .void
  | whileLoop _ condition _ _ => condition.type ≠ .void
  | doLoop _ _ _ condition => condition.type ≠ .void
  | forLoop _ _ condition _ _ _ => ∀ tested ∈ condition, tested.type ≠ .void
  | _ => True

theorem fits_marked {owner : Owner} {reach : Reachability} {stmt : Stmt} :
    (stmt.marked reach).Fits owner ↔ stmt.Fits owner := by
  cases stmt <;> simp [marked, Fits]

end Stmt

section

variable {frame : Frame}

theorem fits_condition {condition : Expr} (sound : condition.Sound)
    (silent : (checkCondition frame.view condition).Silent) :
    (checkCondition frame.view condition).value.type ≠ .void := by
  simp only [checkCondition, Checked.silent_bind, Checked.value_bind] at silent ⊢
  have firm := (Expr.firm_check sound silent.1 _ (Expr.mem_nodes_self _)).1
  rw [(Expr.demand_silent (fun _ => rfl) silent.2).1]
  simpa using Expr.demand_admits (fun _ => rfl) firm.typed silent.2

theorem fits_initializer {view : View} {type : ValueType} {value : Expr} (sound : value.Sound)
    (silent : (checkInitializer view type value).Silent) :
    (checkInitializer view type value).value.type.convertsTo type = true := by
  simp only [checkInitializer, Checked.silent_bind, Checked.value_bind] at silent ⊢
  have firm := (Expr.firm_check sound silent.1 _ (Expr.mem_nodes_self _)).1
  rw [(Expr.demand_silent (fun _ => rfl) silent.2).1]
  exact Expr.demand_admits (fun _ => rfl) firm.typed silent.2

theorem fits_option {check : Expr → Checked Expr} {fits : Expr → Prop} {value : Option Expr}
    (inner : ∀ expr ∈ value, (check expr).Silent → fits (check expr).value)
    (silent : (checkOption check value).Silent) :
    ∀ expr ∈ (checkOption check value).value, fits expr := by
  cases value with
  | none => simp [checkOption]
  | some value =>
      simp only [checkOption, Checked.silent_bind] at silent
      simpa [checkOption] using inner value rfl silent.1

theorem fits_conditions {rest : Alternatives} (sound : ∀ expr ∈ rest.conditions, expr.Sound)
    (silent : (checkAlternatives frame rest).Silent) :
    ∀ tested ∈ (checkAlternatives frame rest).value.conditions, tested.type ≠ .void := by
  match rest with
  | .done => simp [checkAlternatives, Alternatives.conditions]
  | .elseIf _ condition _ _ rest =>
      simp only [checkAlternatives, Checked.silent_bind] at silent
      intro tested member
      simp only [checkAlternatives, Checked.value_bind, Checked.value_pure, Alternatives.conditions,
        List.mem_cons] at member
      rcases member with rfl | member
      · exact fits_condition (sound condition List.mem_cons_self) silent.1
      · exact fits_conditions (fun expr member => sound expr (List.mem_cons_of_mem _ member))
          silent.2.2.1 tested member
  | .otherwise _ _ _ => simp [checkAlternatives, Alternatives.conditions]

theorem fits_return {info : StmtInfo} {value : Option Expr}
    (sound : ∀ expr ∈ value, expr.Sound) (silent : (checkReturn frame info value).Silent) :
    (checkReturn frame info value).value.Fits frame.owner := by
  unfold checkReturn at silent ⊢
  simp only [Checked.silent_bind, Checked.value_bind] at silent ⊢
  obtain ⟨given, fits⟩ := silent
  have typed : ∀ expr ∈ (checkOption (checkExpr frame.view) value).value,
      expr.type?.isSome = true := fits_option (fun value member silent =>
    (Expr.firm_check (sound value member) silent _ (Expr.mem_nodes_self _)).1.typed) given
  split at fits
  case h_1 event value owner same => simp [Stmt.Fits, owner]
  case h_2 => simp [Problem.severity] at fits
  case h_3 name returns value valued owner same =>
    simp only [Checked.silent_bind] at fits
    simp only [Checked.value_bind, Checked.value_pure, Stmt.Fits, owner,
      (Expr.demand_silent (fun _ => rfl) fits.1).1]
    exact Expr.demand_admits (fun _ => rfl) (typed value same) fits.1
  case h_4 name returns owner same =>
    split at fits
    · rename_i nothing
      rw [if_pos nothing]
      simpa [Stmt.Fits, owner] using nothing
    · simp [Problem.severity] at fits
  case h_5 event owner same => simp [Stmt.Fits, owner]

/-- What is demanded of the types in a statement holds if no error is reported. -/
theorem fits_check_stmt {stmt : Stmt} (sound : stmt.Sound)
    (silent : (checkStmt frame stmt).Silent) :
    (checkStmt frame stmt).value.Fits frame.owner := by
  have inner := fun (expr : Expr) (member : expr ∈ stmt.exprs) => sound.expr member
  cases stmt with
  | declare info decl =>
      obtain ⟨form, _⟩ := check_declaration_visits silent
      rw [checkStmt, form]
      simp only [checkStmt, checkDeclaration, Checked.silent_bind] at silent
      exact fits_option (fun value member => fits_initializer
        (inner value (Option.mem_toList.mpr member))) silent.1
  | giveBack info value =>
      exact fits_return (fun expr member => inner expr (Option.mem_toList.mpr member)) silent
  | jump info name target =>
      obtain ⟨_, _, _, form⟩ := check_jump_form frame info name
      rw [checkStmt, form]
      trivial
  | changeState info name target =>
      obtain ⟨_, _, _, form⟩ := check_state_change_form frame info name
      rw [checkStmt, form]
      trivial
  | branch info first condition scope body rest =>
      simp only [checkStmt, Checked.silent_bind] at silent
      intro tested member
      rcases List.mem_cons.mp member with rfl | member
      · exact fits_condition (inner condition List.mem_cons_self) silent.1
      · exact fits_conditions (fun expr member => inner expr (List.mem_cons_of_mem _ member))
          silent.2.2.1 tested member
  | whileLoop info condition scope body =>
      simp only [checkStmt, Checked.silent_bind] at silent
      exact fits_condition (inner condition List.mem_cons_self) silent.1
  | doLoop info scope body condition =>
      simp only [checkStmt, Checked.silent_bind] at silent
      exact fits_condition (inner condition List.mem_cons_self) silent.2.1
  | forLoop info init condition afterthought scope body =>
      simp only [checkStmt, Checked.silent_bind] at silent
      have own (expr : Expr) (member : expr ∈ condition) : expr.Sound :=
        inner expr (List.mem_append_left _ (List.mem_append_right _ (Option.mem_toList.mpr member)))
      exact fits_option (fun value member => fits_condition (own value member)) silent.2.1
  | _ => trivial

end

theorem check_globals_fit {view : View} {list : List GlobalDecl}
    (sound : ∀ global ∈ list, ∀ value ∈ global.decl.initializer, value.Sound)
    (silent : (checkGlobals view list).Silent) :
    ∀ global ∈ (checkGlobals view list).value.1, ∀ value ∈ global.decl.initializer,
      value.type.convertsTo global.decl.type = true := by
  induction list generalizing view with
  | nil => simp [checkGlobals]
  | cons first list induction =>
      simp only [checkGlobals, Checked.silent_bind, Checked.value_bind,
        Checked.value_pure] at silent ⊢
      obtain ⟨initial, _, others, _⟩ := silent
      intro global member
      rcases List.mem_cons.mp member with rfl | member
      · refine fits_option (fun value given silent => ?_) initial
        simp only [checkGlobalInitializer, Checked.silent_bind, Checked.value_bind] at silent ⊢
        obtain ⟨fits, written⟩ := silent
        split at written
        · rename_i constant
          rw [if_pos constant]
          exact fits_initializer (sound first List.mem_cons_self value given) fits
        · simp [Problem.severity] at written
      · exact induction (fun global member => sound global (List.mem_cons_of_mem _ member)) others
          global member

/-- The expressions of a body have the types that the rules give them where they stand, and these
types do for the statements. -/
structure CodeScope.TypedIn (context : Context) (owner : Owner) (body : CodeScope) : Prop where
  placed : ∀ stmt ∈ Stmt.listStatements body.body,
    ∃ levels back, Spot body.info.id body.body levels (stmt :: back)
  typed : ∀ levels stmt back, Spot body.info.id body.body levels (stmt :: back) →
    (∀ expr ∈ stmt.exprs, expr.TypedIn { context with levels }) ∧ stmt.Fits owner

theorem Accepted.body_typed {library : Library} {source : String}
    (accepted : Accepted library source) (wellFormed : library.WellFormed) {owner : Owner}
    {parameters : ParameterList} {body : CodeScope}
    (passed : body.Passed ((parse (tokenize source)).1.outlook library) owner parameters) :
    body.TypedIn { (checkSource library source).value.context library with
      parameters := parameters.members } owner where
  placed := fun _ inside => Spot.of_statement _ inside
  typed := by
    intro levels stmt back spot
    obtain ⟨distinct, near, rest, seen, view⟩ := accepted.spot_context passed spot
    refine ⟨?_, ?_⟩
    · intro expr member
      have typed := seen.holds.exprs expr member
      rw [view] at typed
      exact Expr.typed_in wellFormed distinct accepted.traced.functions typed
    · obtain ⟨origin, silent, sound, _, same⟩ := seen.head
      have fits := fits_check_stmt sound silent
      rwa [seen.owner, ← Stmt.fits_marked, ← same, Stmt.fits_marked] at fits

theorem Accepted.initializer_fits {library : Library} {source : String}
    (accepted : Accepted library source) {global : GlobalDecl}
    (member : global ∈ (checkSource library source).value.globals) :
    ∀ value ∈ global.decl.initializer, value.type.convertsTo global.decl.type = true := by
  have silent := accepted.silent
  rw [accepted.checked, check_declarations_value] at member
  simp only [checkDeclarations, Checked.silent_bind] at silent
  exact check_globals_fit (fun global member => (accepted.sound.global member).2) silent.2.2.2.1
    global member

/-- An accepted source is well typed everywhere: every node of an expression has the one type that
the rules give it, where names denote what static scoping says. What is returned and the initial
values convert to the types of what they are for, and conditions have a value. -/
theorem accepted_well_typed {library : Library} {source : String}
    (wellFormed : library.WellFormed) (accepted : Accepted library source) :
    let script := (checkSource library source).value
    let context := script.context library
    (∀ decl ∈ script.functions, decl.ownScope.TypedIn
      { context with parameters := decl.parameters.members } (.function decl.name decl.returns)) ∧
    (∀ state ∈ script.allStates, ∀ decl ∈ state.handlers, decl.ownScope.TypedIn
      { context with parameters := decl.parameters.members } (.handler decl.name)) ∧
    ∀ front global back, script.globals = front ++ global :: back →
      ∀ value ∈ global.decl.initializer, value.TypedIn { context with globals := front } ∧
        value.type.convertsTo global.decl.type = true := by
  intro script context
  refine ⟨?_, ?_, ?_⟩
  · exact fun decl member => accepted.body_typed wellFormed (accepted.function_passed member)
  · exact fun state inside decl member =>
      accepted.body_typed wellFormed (accepted.handler_passed inside member)
  · intro front global back split value given
    obtain ⟨distinct, forthcoming, typed⟩ := accepted.initializer_context split given
    refine ⟨Expr.typed_in wellFormed distinct accepted.traced.functions typed, ?_⟩
    exact accepted.initializer_fits (split ▸ List.mem_append_right _ List.mem_cons_self) value given

/-- Parts of a vector and of a rotation are converted, and an own function is called. -/
theorem turning_well_typed :
    let source := "vector turn(rotation r) \x7b return <r.x, r.s, 1>; \x7d default \x7b state_entry() " ++
      "\x7b vector v = turn(<0, 1.5, -1, 1>); v += <v.z, 2, 0>; \x7d \x7d"
    let script := (checkSource .minimal source).value
    Library.minimal.WellFormed ∧ Accepted .minimal source ∧
      (∃ decl ∈ script.functions, decl.returns = .vector ∧ decl.ownScope.TypedIn
        { script.context .minimal with parameters := decl.parameters.members }
        (.function decl.name decl.returns)) ∧
      ∃ state ∈ script.allStates, ∃ decl ∈ state.handlers,
        ((Stmt.bodyExprs decl.body).flatMap Expr.nodes).map Expr.type =
          [.vector, .rotation, .integer, .float, .integer, .integer, .integer,
            .vector, .vector, .vector, .float, .vector, .integer, .integer] ∧
        decl.ownScope.TypedIn
          { script.context .minimal with parameters := decl.parameters.members }
          (.handler decl.name) := by
  intro source script
  have wellFormed : Library.minimal.WellFormed := ⟨by decide +kernel, by decide +kernel⟩
  have spelled : source = String.ofList _ := String.ofList_append.symm
  have facts : Accepted .minimal source ∧ (∃ decl ∈ script.functions, decl.returns = .vector) ∧
      ∃ state ∈ script.allStates, ∃ decl ∈ state.handlers,
        ((Stmt.bodyExprs decl.body).flatMap Expr.nodes).map Expr.type =
          [.vector, .rotation, .integer, .float, .integer, .integer, .integer,
            .vector, .vector, .vector, .float, .vector, .integer, .integer] := by
    simp only [Accepted, script, check_source_spelled spelled]
    decide +kernel
  obtain ⟨accepted, ⟨decl, member, returns⟩, state, inside, handler, held, types⟩ := facts
  obtain ⟨functions, handlers, _⟩ := accepted_well_typed wellFormed accepted
  exact ⟨wellFormed, accepted, ⟨decl, member, returns, functions decl member⟩,
    state, inside, handler, held, types, handlers state inside handler held⟩

end Lsl
