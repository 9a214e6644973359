import Lsl.Proofs.Checking.Flagging
import Lsl.Proofs.Checking.Labels

/-!
Where reports stand. All that checking reports about statements and declarations stands at one of
them, at an expression in them or, for dead code, at the text of several statements.
-/

set_option autoImplicit false

namespace Lsl

/-- A statement and the expressions in it stand at some of the places. -/
structure Stmt.Stands (places : List Span) (stmt : Stmt) : Prop where
  span : stmt.span ∈ places
  exprs : ∀ expr ∈ stmt.exprs, expr.Lies places

/-- All statements of a body do. -/
def Stmt.AllStand (places : List Span) (body : List Stmt) : Prop :=
  ∀ stmt ∈ listStatements body, stmt.Stands places

namespace Stmt

variable {places : List Span}

theorem all_stand_cons {stmt : Stmt} {rest : List Stmt} :
    AllStand places (stmt :: rest) ↔
      stmt.Stands places ∧ (∀ part ∈ stmt.parts, AllStand places part.body) ∧
        AllStand places rest := by
  simp only [AllStand, mem_list_statements_cons]
  constructor
  · intro all
    exact ⟨all stmt (.inl rfl), fun part member inner inside => all inner
      (.inr (.inl ⟨part, member, inside⟩)), fun inner inside => all inner (.inr (.inr inside))⟩
  · rintro ⟨here, parts, others⟩ inner (rfl | ⟨part, member, inside⟩ | inside)
    · exact here
    · exact parts part member inner inside
    · exact others inner inside

end Stmt

namespace Checked.Lands

variable {places : List Span} {frame : Frame} {view : View}

theorem report {span : Span} (known : span ∈ places) (problem : Problem) :
    (Lsl.report span problem).Lands places fun _ => True where
  reports := by
    intro report member
    obtain rfl := List.mem_singleton.mp member
    exact known
  value := trivial

theorem blame_stmt {info : StmtInfo} (known : info.span ∈ places) (problem : Problem) :
    (info.blame problem).Lands places fun after => after.span ∈ places where
  reports := by
    intro report member
    obtain rfl := List.mem_singleton.mp member
    exact known
  value := known

theorem option {α : Type} {check : α → Checked α} {holds : α → Prop} {value : Option α}
    (each : ∀ given ∈ value, (check given).Lands places holds) :
    (checkOption check value).Lands places fun checked => ∀ given ∈ checked, holds given := by
  cases value with
  | none => exact .pure (by simp)
  | some given =>
      refine (each given rfl).bind fun checked fine => .pure ?_
      simpa using fine

theorem condition {expr : Expr} (lies : expr.Lies places) :
    (checkCondition view expr).Lands places (Expr.Lies places) :=
  (Expr.check_lands lies).bind fun _ lies => .demand lies _ _

theorem initializer {type : ValueType} {expr : Expr} (lies : expr.Lies places) :
    (checkInitializer view type expr).Lands places (Expr.Lies places) :=
  (Expr.check_lands lies).bind fun _ lies => .demand lies _ _

theorem expr_list {list : ExprList} (lie : ∀ expr ∈ list.members, expr.Lies places) :
    (checkExprList view list).Lands places fun list => ∀ expr ∈ list.members, expr.Lies places :=
  (exprs (fun _ lies => .pure lies) fun expr member => Expr.check_lands (lie expr member)).bind
    fun _ lie => .pure lie

theorem close_scope {body : List Stmt} (stand : Stmt.AllStand places body) :
    (closeScope body).Lands places (Stmt.AllStand places) where
  reports := by
    intro report member
    obtain ⟨⟨name, span⟩, inside, rfl⟩ := List.mem_map.mp member
    obtain ⟨stmt, member, declared⟩ := List.mem_filterMap.mp (List.mem_filter.mp inside).1
    have known := (stand stmt (Stmt.subset_list_statements member)).span
    cases stmt with
    | declare info decl =>
        simp only [Stmt.declared?] at declared
        split at declared
        · cases declared
        · simp only [Option.some.injEq, Prod.mk.injEq] at declared
          rw [← declared.2]
          exact known
    | _ => cases declared
  value := stand

end Checked.Lands

/-- What a statement makes of its parts when it is checked. -/
structure Stmt.Standing (places : List Span) (stmt : Stmt) : Prop where
  here : stmt.Stands places
  parts : ∀ part ∈ stmt.parts, Stmt.AllStand places part.body

structure Alternatives.Standing (places : List Span) (rest : Alternatives) : Prop where
  conditions : ∀ expr ∈ rest.conditions, expr.Lies places
  parts : ∀ part ∈ rest.parts, Stmt.AllStand places part.body

namespace Checked.Lands

variable {places : List Span} {frame : Frame}

section

variable {info : StmtInfo} (known : info.span ∈ places)

include known

theorem declaration {decl : Variable} (lie : ∀ expr ∈ decl.initializer.toList, expr.Lies places) :
    (checkDeclaration frame info decl).Lands places (Stmt.Standing places) := by
  unfold checkDeclaration
  refine (option fun expr given => initializer (lie expr (Option.mem_toList.mpr given))).bind
    fun value lies => ?_
  have standing {after : StmtInfo} (here : after.span ∈ places) (decl : Variable)
      (given : decl.initializer = value) : (Stmt.declare after decl).Standing places := by
    refine ⟨⟨here, ?_⟩, by simp [Stmt.parts]⟩
    intro expr member
    simp only [Stmt.exprs, given, Option.mem_toList] at member
    exact lies expr member
  dsimp only
  split
  · exact (blame_stmt known _).bind fun after here => .pure (standing here _ rfl)
  · exact .pure (standing known _ rfl)

theorem give_back {value : Option Expr} (lie : ∀ expr ∈ value.toList, expr.Lies places) :
    (checkReturn frame info value).Lands places (Stmt.Standing places) := by
  unfold checkReturn
  refine (option fun expr given => Expr.check_lands (lie expr (Option.mem_toList.mpr given))).bind
    fun value lies => ?_
  have standing {after : StmtInfo} (here : after.span ∈ places) (value : Option Expr)
      (lies : ∀ expr ∈ value, expr.Lies places) : (Stmt.giveBack after value).Standing places := by
    refine ⟨⟨here, ?_⟩, by simp [Stmt.parts]⟩
    intro expr member
    exact lies expr (Option.mem_toList.mp member)
  split
  · exact (report known _).bind fun _ _ => .pure (standing known _ lies)
  · exact (blame_stmt known _).bind fun after here => .pure (standing here _ lies)
  · refine (demand (lies _ rfl) _ _).bind fun value lies => .pure (standing known _ ?_)
    intro expr given
    obtain rfl := Option.mem_some.mp given
    exact lies
  · split
    · exact .pure (standing known _ (by simp))
    · exact (blame_stmt known _).bind fun after here => .pure (standing here _ (by simp))
  · exact .pure (standing known _ (by simp))

theorem jump {name : String} :
    (checkJump frame info name).Lands places (Stmt.Standing places) := by
  have standing {after : StmtInfo} (here : after.span ∈ places) (target : Option JumpTarget) :
      (Stmt.jump after name target).Standing places :=
    ⟨⟨here, by simp [Stmt.exprs]⟩, by simp [Stmt.parts]⟩
  unfold checkJump
  split
  · exact (blame_stmt known _).bind fun after here => .pure (standing here _)
  · dsimp only
    split
    · exact .pure (standing known _)
    · exact (blame_stmt known _).bind fun after here => .pure (standing here _)

theorem state_change {name : String} :
    (checkStateChange frame info name).Lands places (Stmt.Standing places) := by
  have standing {after : StmtInfo} (here : after.span ∈ places) (target : Option Nat) :
      (Stmt.changeState after name target).Standing places :=
    ⟨⟨here, by simp [Stmt.exprs]⟩, by simp [Stmt.parts]⟩
  unfold checkStateChange
  split
  · exact (blame_stmt known _).bind fun after here => .pure (standing here _)
  · split
    · exact (report known _).bind fun _ _ => .pure (standing known _)
    · exact .pure (standing known _)

end

theorem alternatives {rest : Alternatives} (standing : rest.Standing places)
    (parts : ∀ part ∈ rest.parts, ∀ frame,
      (checkStmts frame part.body >>= closeScope).Lands places (Stmt.AllStand places)) :
    (checkAlternatives frame rest).Lands places (Alternatives.Standing places) := by
  match rest with
  | .done => exact .pure standing
  | .elseIf span value scope body rest =>
      refine (condition (standing.conditions value List.mem_cons_self)).bind fun value lies => ?_
      refine (parts ⟨scope, body⟩ List.mem_cons_self _).bind fun body stand => ?_
      have others : rest.Standing places :=
        ⟨fun expr member => standing.conditions expr (List.mem_cons_of_mem _ member),
          fun part member => standing.parts part (List.mem_cons_of_mem _ member)⟩
      refine (alternatives others fun part member => parts part
        (List.mem_cons_of_mem _ member)).bind fun rest stood => .pure ?_
      exact ⟨List.forall_mem_cons.mpr ⟨lies, stood.conditions⟩,
        List.forall_mem_cons.mpr ⟨stand, stood.parts⟩⟩
  | .otherwise span scope body =>
      refine (parts ⟨scope, body⟩ List.mem_cons_self _).bind fun body stand => .pure ?_
      exact ⟨by simp [Alternatives.conditions], by simpa [Alternatives.parts] using stand⟩

theorem stmt {stmt : Stmt} (standing : stmt.Standing places)
    (parts : ∀ part ∈ stmt.parts, ∀ frame,
      (checkStmts frame part.body >>= closeScope).Lands places (Stmt.AllStand places)) :
    (checkStmt frame stmt).Lands places (Stmt.Standing places) := by
  obtain ⟨⟨known, lie⟩, inside⟩ := standing
  cases stmt with
  | block scope body =>
      refine (parts ⟨scope, body⟩ List.mem_cons_self _).bind fun body stand => .pure ?_
      exact ⟨⟨known, by simp [Stmt.exprs]⟩, by simpa [Stmt.parts] using stand⟩
  | declare info decl => exact declaration known lie
  | perform info value =>
      refine (Expr.check_lands (lie value List.mem_cons_self)).bind fun value lies => .pure ?_
      exact ⟨⟨known, by simpa [Stmt.exprs] using lies⟩, by simp [Stmt.parts]⟩
  | giveBack info value => exact give_back known lie
  | jump info name target => exact jump known
  | label info name => exact .pure ⟨⟨known, lie⟩, inside⟩
  | changeState info name target => exact state_change known
  | branch info first value scope body rest =>
      refine (condition (lie value List.mem_cons_self)).bind fun value lies => ?_
      refine (parts ⟨scope, body⟩ List.mem_cons_self _).bind fun body stand => ?_
      have others : rest.Standing places :=
        ⟨fun expr member => lie expr (List.mem_cons_of_mem _ member),
          fun part member => inside part (List.mem_cons_of_mem _ member)⟩
      refine (alternatives others fun part member => parts part
        (List.mem_cons_of_mem _ member)).bind fun rest stood => .pure ?_
      exact ⟨⟨known, List.forall_mem_cons.mpr ⟨lies, stood.conditions⟩⟩,
        List.forall_mem_cons.mpr ⟨stand, stood.parts⟩⟩
  | whileLoop info value scope body =>
      refine (condition (lie value List.mem_cons_self)).bind fun value lies => ?_
      refine (parts ⟨scope, body⟩ List.mem_cons_self _).bind fun body stand => .pure ?_
      exact ⟨⟨known, by simpa [Stmt.exprs] using lies⟩, by simpa [Stmt.parts] using stand⟩
  | doLoop info scope body value =>
      refine (parts ⟨scope, body⟩ List.mem_cons_self _).bind fun body stand => ?_
      refine (condition (lie value List.mem_cons_self)).bind fun value lies => .pure ?_
      exact ⟨⟨known, by simpa [Stmt.exprs] using lies⟩, by simpa [Stmt.parts] using stand⟩
  | forLoop info init value afterthought scope body =>
      simp only [Stmt.exprs, List.forall_mem_append, Option.mem_toList] at lie
      obtain ⟨⟨front, middle⟩, back⟩ := lie
      have list {list : Option ExprList} (lie : ∀ expr ∈ Stmt.listExprs list, expr.Lies places) :
          (checkOption (checkExprList frame.view) list).Lands places fun list =>
            ∀ expr ∈ Stmt.listExprs list, expr.Lies places := by
        cases list with
        | none => exact .pure (by simp [Stmt.listExprs])
        | some list => exact (expr_list lie).bind fun list lie => .pure lie
      refine (list front).bind fun init front => ?_
      refine (option fun expr given => condition (middle expr given)).bind fun value middle => ?_
      refine (list back).bind fun afterthought back => ?_
      refine (parts ⟨scope, body⟩ List.mem_cons_self _).bind fun body stand => .pure ?_
      refine ⟨⟨known, ?_⟩, by simpa [Stmt.parts] using stand⟩
      simp only [Stmt.exprs, List.forall_mem_append, Option.mem_toList]
      exact ⟨⟨front, middle⟩, back⟩
  | empty info => exact .pure ⟨⟨known, by simp [Stmt.exprs]⟩, by simp [Stmt.parts]⟩
  | broken span => exact .pure ⟨⟨known, by simp [Stmt.exprs]⟩, by simp [Stmt.parts]⟩

theorem stmts {body : List Stmt} (stand : Stmt.AllStand places body) :
    (checkStmts frame body).Lands places (Stmt.AllStand places) := by
  induction body using Stmt.list_induction generalizing frame with
  | nil => exact .pure stand
  | cons head rest inner outer =>
      obtain ⟨here, inside, others⟩ := Stmt.all_stand_cons.mp stand
      refine (stmt ⟨here, inside⟩ fun part member frame =>
        (inner part member (inside part member)).bind fun _ => close_scope).bind
          fun first stood => ?_
      refine (outer others).bind fun rest others => .pure ?_
      exact Stmt.all_stand_cons.mpr ⟨stood.here, stood.parts, others⟩

theorem labels {declared labels : List LabelPlace} (known : ∀ label ∈ labels, label.span ∈ places) :
    (declareLabels declared labels).Lands places fun _ => True := by
  induction labels generalizing declared with
  | nil => exact .pure trivial
  | cons label rest induction =>
      have others (declared : List LabelPlace) :
          (declareLabels declared rest).Lands places fun _ => True :=
        induction fun label member => known label (List.mem_cons_of_mem _ member)
      unfold declareLabels
      split
      · exact (report (known label List.mem_cons_self) _).bind fun _ _ => others declared
      · exact others _

end Checked.Lands

theorem Alternatives.regions_settle (targets : List Nat) (rest : Alternatives) :
    (rest.settle targets).2 =
      rest.parts.flatMap fun part => (Stmt.listSettle targets {} part.body).2 := by
  cases rest with
  | done => rfl
  | elseIf _ _ _ body rest =>
      simp only [settle, parts, List.flatMap_cons, rest.regions_settle]
  | otherwise _ _ body => simp [settle, parts]

namespace Stmt

/-- The dead code inside of a live statement is that of its scopes. -/
theorem regions_settle (targets : List Nat) (stmt : Stmt) :
    (stmt.settle targets).2 =
      stmt.parts.flatMap fun part => (listSettle targets {} part.body).2 := by
  cases stmt <;> simp [settle, parts, Alternatives.regions_settle]

variable {places : List Span}

theorem labels_stand {scope : Nat} {body : List Stmt} (stand : AllStand places body) :
    ∀ label ∈ listLabels scope body, label.span ∈ places := by
  induction body using Stmt.list_induction generalizing scope with
  | nil => simp [listLabels]
  | cons stmt rest inner outer =>
      obtain ⟨here, parts, others⟩ := all_stand_cons.mp stand
      rw [list_labels_cons]
      intro label member
      rcases List.mem_append.mp member with member | member
      · rcases List.mem_append.mp member with own | inside
        · cases stmt with
          | label info name =>
              obtain rfl := Option.mem_some.mp (Option.mem_toList.mp own)
              exact here.span
          | _ => simp [labelPlace?] at own
        · obtain ⟨part, partMember, inside⟩ := List.mem_flatMap.mp inside
          exact inner part partMember (parts part partMember) label inside
      · exact outer others label member

/-- The dead code of a body is made of statements of the body. -/
theorem regions_stand (merges : ∀ first ∈ places, ∀ second ∈ places,
      first.merge second ∈ places) {targets : List Nat} {flow : Flow} {body : List Stmt}
    (stand : AllStand places body) (open_ : ∀ region ∈ flow.region, region ∈ places) :
    ∀ region ∈ (listSettle targets flow body).2, region ∈ places := by
  induction body using Stmt.list_induction generalizing flow with
  | nil => simpa [listSettle] using open_
  | cons stmt rest inner outer =>
      obtain ⟨here, parts, others⟩ := all_stand_cons.mp stand
      have met : ∀ region ∈ (flow.meet stmt.start).region, region ∈ places := open_
      have extended : ∀ region ∈ ((flow.meet stmt.start).extend stmt.span).region,
          region ∈ places := by
        unfold Flow.extend
        split
        · rename_i region found
          intro merged member
          obtain rfl := Option.mem_some.mp member
          exact merges _ (met region found) _ here.span
        · intro region member
          obtain rfl := Option.mem_some.mp member
          exact here.span
      have left : ∀ region ∈ ((flow.meet stmt.start).leave stmt).region, region ∈ places := by
        have same : ((flow.meet stmt.start).leave stmt).region = flow.region := by
          unfold Flow.leave
          split
          · rfl
          · rfl
          · split <;> rfl
          · rfl
          · rfl
        rw [same]
        exact open_
      intro region member
      rw [listSettle] at member
      dsimp only at member
      split at member
      · split at member
        · rcases List.mem_append.mp member with member | member
          · exact met region (Option.mem_toList.mp member)
          · exact outer others (by simp) region member
        · exact outer others extended region member
      · rcases List.mem_append.mp member with member | member
        · rw [regions_settle] at member
          obtain ⟨part, partMember, inside⟩ := List.mem_flatMap.mp member
          exact inner part partMember (parts part partMember) (by simp) region inside
        · exact outer others left region member

end Stmt

/-- A function or handler stands at some of the places with all that is checked in it. -/
structure Routine.Stands (places : List Span) (span : Span) (parameters : ParameterList)
    (body : List Stmt) : Prop where
  span : span ∈ places
  parameters : ∀ decl ∈ parameters.members, decl.span ∈ places
  body : Stmt.AllStand places body

structure StateDecl.Stands (places : List Span) (decl : StateDecl) : Prop where
  span : decl.span ∈ places
  handlers : ∀ handler ∈ decl.handlers,
    Routine.Stands places handler.span handler.parameters handler.body

structure GlobalDecl.Stands (places : List Span) (decl : GlobalDecl) : Prop where
  span : decl.span ∈ places
  initializer : ∀ expr ∈ decl.decl.initializer, expr.Lies places

structure Script.Stands (places : List Span) (script : Script) : Prop where
  globals : ∀ decl ∈ script.globals, decl.Stands places
  functions : ∀ decl ∈ script.functions,
    Routine.Stands places decl.span decl.parameters decl.body
  states : ∀ decl ∈ script.allStates, decl.Stands places
  ends : Span.point script.span.stop ∈ places

namespace Checked.Lands

variable {places : List Span}

theorem report_at {span : Span} (known : span ∈ places) (problem : Option Problem) :
    (reportAt span problem).Lands places fun _ => True := by
  cases problem with
  | none => exact .pure trivial
  | some problem => exact ⟨(report known problem).reports, trivial⟩

theorem report_each {regions : List Span} (known : ∀ region ∈ regions, region ∈ places)
    (problem : Problem) :
    (regions.forM (Lsl.report · problem)).Lands places fun _ => True := by
  induction regions with
  | nil => exact .pure trivial
  | cons region rest induction =>
      exact (report (known region List.mem_cons_self) problem).bind fun _ _ =>
        induction fun region member => known region (List.mem_cons_of_mem _ member)

theorem functions {library : Library} {declared : List FunctionHeader}
    {decls : List FunctionDecl}
    (stand : ∀ decl ∈ decls, Routine.Stands places decl.span decl.parameters decl.body) :
    (declareFunctions library declared decls).Lands places fun result =>
      ∀ decl ∈ result.1, Routine.Stands places decl.span decl.parameters decl.body := by
  induction decls generalizing declared with
  | nil => exact .pure (by simp)
  | cons decl rest induction =>
      have here := stand decl List.mem_cons_self
      refine (report_at here.span _).bind fun faulty _ => ?_
      refine (induction fun decl member => stand decl (List.mem_cons_of_mem _ member)).bind
        fun result others => .pure ?_
      exact List.forall_mem_cons.mpr ⟨here, others⟩

theorem states {declared : List (String × Nat)} {decls : List StateDecl}
    (stand : ∀ decl ∈ decls, decl.Stands places) :
    (declareStates declared decls).Lands places fun result =>
      ∀ decl ∈ result.1, decl.Stands places := by
  induction decls generalizing declared with
  | nil => exact .pure (by simp)
  | cons decl rest induction =>
      have here := stand decl List.mem_cons_self
      have first : (declareState declared decl).Lands places fun result =>
          result.1.Stands places :=
        (report_at here.span _).bind fun faulty _ => .pure ⟨here.span, here.handlers⟩
      refine first.bind fun result here => ?_
      refine (induction fun decl member => stand decl (List.mem_cons_of_mem _ member)).bind
        fun result others => .pure ?_
      exact List.forall_mem_cons.mpr ⟨here, others⟩

theorem globals {view : View} {decls : List GlobalDecl}
    (stand : ∀ decl ∈ decls, decl.Stands places) :
    (checkGlobals view decls).Lands places fun _ => True := by
  induction decls generalizing view with
  | nil => exact .pure trivial
  | cons decl rest induction =>
      have here := stand decl List.mem_cons_self
      have initial (expr : Expr) (lies : expr.Lies places) :
          (checkGlobalInitializer view decl.decl.type decl.decl.name expr).Lands places
            (Expr.Lies places) := by
        unfold checkGlobalInitializer
        refine (initializer lies).bind fun expr lies => ?_
        split
        · exact .pure lies
        · exact lies.blame _
      refine (option fun expr given => initial expr (here.initializer expr given)).bind
        fun value _ => ?_
      refine (report_at here.span _).bind fun faulty _ => ?_
      exact (induction fun decl member => stand decl (List.mem_cons_of_mem _ member)).bind
        fun result _ => .pure trivial

theorem parameters {library : Library} {declared : List Visible} {decls : List ParameterDecl}
    (known : ∀ decl ∈ decls, decl.span ∈ places) :
    (declareParameters library declared decls).Lands places fun _ => True := by
  induction decls generalizing declared with
  | nil => exact .pure trivial
  | cons decl rest induction =>
      refine (report_at (known decl List.mem_cons_self) _).bind fun faulty _ => ?_
      exact (induction fun decl member => known decl (List.mem_cons_of_mem _ member)).bind
        fun result _ => .pure trivial

section

variable (merges : ∀ first ∈ places, ∀ second ∈ places, first.merge second ∈ places)
  {outlook : Outlook}

include merges

theorem body {owner : Owner} {span : Span} {list : ParameterList} {scope : ScopeInfo}
    {statements : List Stmt} (stand : Routine.Stands places span list statements) :
    (checkBody outlook owner list scope statements).Lands places fun _ => True := by
  unfold checkBody
  refine (labels (Stmt.labels_stand stand.body)).bind fun labels _ => ?_
  refine (parameters stand.parameters).bind fun result _ => ?_
  refine ((stmts stand.body).bind fun _ => close_scope).bind fun body stand => ?_
  refine (report_each ?_ _).bind fun _ _ => .pure trivial
  exact Stmt.regions_stand merges stand (by simp)

theorem function {decl : FunctionDecl}
    (stand : Routine.Stands places decl.span decl.parameters decl.body) :
    (checkFunction outlook decl).Lands places fun _ => True := by
  unfold checkFunction
  refine (body merges stand).bind fun result _ => ?_
  exact (report_at stand.span _).bind fun faulty _ => .pure trivial

theorem handler {decl : HandlerDecl}
    (stand : Routine.Stands places decl.span decl.parameters decl.body) :
    (checkHandler outlook decl).Lands places fun _ => True := by
  unfold checkHandler
  refine (report_at stand.span _).bind fun faulty _ => ?_
  exact (body merges stand).bind fun result _ => .pure trivial

theorem members {state : String} {seen : List String} {list : List StateMember}
    (stand : ∀ handler ∈ list.filterMap StateMember.handler?,
      Routine.Stands places handler.span handler.parameters handler.body) :
    (checkMembers outlook state seen list).Lands places fun _ => True := by
  induction list generalizing seen with
  | nil => exact .pure trivial
  | cons member rest induction =>
      cases member with
      | broken span => exact (induction stand).bind fun rest _ => .pure trivial
      | handler decl =>
          have here := stand decl List.mem_cons_self
          have others (seen : List String) :
              (checkMembers outlook state seen rest).Lands places fun _ => True :=
            induction fun handler member => stand handler (List.mem_cons_of_mem _ member)
          unfold checkMembers
          split
          · refine (report here.span _).bind fun _ _ => ?_
            exact (others seen).bind fun rest _ => .pure trivial
          · refine (handler merges here).bind fun decl _ => ?_
            exact (others _).bind fun rest _ => .pure trivial

theorem state {decl : StateDecl} (stand : decl.Stands places) :
    (checkState outlook decl).Lands places fun _ => True := by
  unfold checkState
  split
  · exact (report stand.span _).bind fun _ _ => .pure trivial
  · exact (members merges stand.handlers).bind fun _ _ => .pure trivial

omit merges in
theorem each {α : Type} {check : α → Checked α} {values : List α}
    (lands : ∀ value ∈ values, (check value).Lands places fun _ => True) :
    (checkEach check values).Lands places fun _ => True := by
  induction values with
  | nil => exact .pure trivial
  | cons value rest induction =>
      refine (lands value List.mem_cons_self).bind fun _ _ => ?_
      exact (induction fun value member => lands value (List.mem_cons_of_mem _ member)).bind
        fun _ _ => .pure trivial

theorem declarations {library : Library} {script : Script} (stand : script.Stands places) :
    (checkDeclarations library script).Lands places fun _ => True := by
  have found : ∀ decl ∈ script.defaultState.toList, decl.Stands places :=
    fun decl member => stand.states decl (List.mem_append_left _ member)
  have others : ∀ decl ∈ script.states, decl.Stands places :=
    fun decl member => stand.states decl (List.mem_append_right _ member)
  unfold checkDeclarations
  refine (functions stand.functions).bind fun declared routines => ?_
  refine (states found).bind fun first default => ?_
  refine (states others).bind fun second rest => ?_
  refine (globals stand.globals).bind fun known _ => ?_
  refine (each fun decl member => function merges (routines decl member)).bind fun _ _ => ?_
  have defaultState {outlook : Outlook} :
      (checkDefaultState outlook script.span first.1.head?).Lands places fun _ => True := by
    unfold checkDefaultState
    split
    · rename_i decl head
      exact (state merges (default decl (List.mem_of_head? head))).bind fun _ _ => .pure trivial
    · exact (report stand.ends _).bind fun _ _ => .pure trivial
  refine defaultState.bind fun _ _ => ?_
  exact (each fun decl member => state merges (rest decl member)).bind fun _ _ => .pure trivial

end

end Checked.Lands

end Lsl
