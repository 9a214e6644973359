import Lsl.Proofs.Checking.Relocating
import Lsl.Proofs.Flow.Settling
import Lsl.Proofs.Syntax.Alignment

/-!
Checking two bodies that say the same. If both see the same around them, up to new numbers for
places and scopes, then the same problems are found in both of them, in the same order.
-/

set_option autoImplicit false

namespace Lsl

def Outlook.relocate (relocation : Relocation) (outlook : Outlook) : Outlook :=
  ⟨outlook.view.relocate relocation, outlook.states.map (Prod.map id relocation.outer)⟩

/-- Checks a function or handler, as far as its parameters and its body go. -/
def Routine.check (outlook : Outlook) (owner : Owner) (routine : Routine) :
    Checked (ParameterList × List Stmt) :=
  checkBody outlook owner routine.parameters routine.scope.info routine.scope.body

/-- Checks a body up to the search for dead code. -/
def Routine.draft (outlook : Outlook) (owner : Owner) (routine : Routine) :
    Checked (List Stmt) := do
  let labels ← declareLabels [] (Stmt.listLabels routine.scope.info.id routine.scope.body)
  let found ← declareParameters outlook.view.library [] routine.parameters.members
  let view := { outlook.view with locals := found.2 }
  let frame : Frame := ⟨view, outlook.states, labels, owner, [routine.scope.info.id]⟩
  checkStmts frame routine.scope.body >>= closeScope

theorem problems_of_regions (regions : List Span) (problem : Problem) :
    (regions.forM (report · problem)).problems = List.replicate regions.length problem := by
  induction regions with
  | nil => rfl
  | cons region regions induction =>
      simp only [Checked.problems] at induction
      rw [List.forM, Checked.problems, Checked.reports_bind, List.map_append, induction]
      rfl

namespace Routine

variable (outlook : Outlook) (owner : Owner) (routine : Routine)

theorem check_value :
    (routine.check outlook owner).value.2 =
      (settleBody (routine.draft outlook owner).value).1 := rfl

theorem check_problems :
    (routine.check outlook owner).problems = (routine.draft outlook owner).problems ++
      List.replicate (settleBody (routine.draft outlook owner).value).2.length .deadCode := by
  rw [← problems_of_regions]
  simp only [check, checkBody, draft, Checked.problems, Checked.reports_bind, Checked.value_bind,
    Checked.reports_pure, List.append_nil, List.map_append, List.append_assoc]

end Routine

namespace Checked.Tracks

variable {apart : Prop} {relocation : Relocation}

theorem at_place {span other : Span} (problem? : Option Problem) :
    Tracks apart id (reportAt span problem?) (reportAt other problem?) := by
  cases problem? <;> exact ⟨rfl, fun _ => rfl⟩

theorem labels (declared list : List LabelPlace) :
    Tracks apart (List.map (LabelPlace.relocate relocation)) (declareLabels declared list)
      (declareLabels (declared.map (LabelPlace.relocate relocation))
        (list.map (LabelPlace.relocate relocation))) := by
  induction list generalizing declared with
  | nil => exact .pure rfl
  | cons label list induction =>
      have known : (declared.map (LabelPlace.relocate relocation)).any (·.name == label.name) =
          declared.any (·.name == label.name) := List.any_map
      simp only [List.map_cons, declareLabels]
      change Tracks apart _ _ (if (declared.map (LabelPlace.relocate relocation)).any
        (·.name == label.name) then _ else _)
      rw [known]
      split
      · exact report.bind fun _ => induction declared
      · have more := induction (declared ++ [label])
        rwa [List.map_append] at more

theorem parameters (library : Library) (declared : List Visible) (list : List ParameterDecl) :
    Tracks apart (Prod.map (List.map (ParameterDecl.relocate relocation))
        (List.map (Visible.relocate relocation)))
      (declareParameters library declared list)
      (declareParameters library (declared.map (Visible.relocate relocation))
        (list.map (ParameterDecl.relocate relocation))) := by
  induction list generalizing declared with
  | nil => exact .pure rfl
  | cons decl list induction =>
      have known : (declared.map (Visible.relocate relocation)).any (·.name == decl.name) =
          declared.any (·.name == decl.name) := List.any_map
      simp only [List.map_cons, declareParameters]
      change Tracks apart _ _ (reportAt _ (if (library.constant? decl.name).isSome then _
        else if (declared.map (Visible.relocate relocation)).any (·.name == decl.name) then _
        else _) >>= _)
      rw [known]
      refine (at_place _).bind fun faulty => ?_
      cases faulty with
      | true => exact (induction declared).bind fun found => .pure rfl
      | false =>
          have more := induction (declared ++ [⟨decl.name, decl.type, .parameter decl.start⟩])
          rw [List.map_append] at more
          exact more.bind fun found => .pure rfl

theorem draft (faithful : relocation.Faithful) (outlook : Outlook) (owner : Owner)
    (routine : Routine) :
    Tracks relocation.Uniform (Stmt.listRecast relocation.bound) (routine.draft outlook owner)
      ((routine.relocate relocation).draft (outlook.relocate relocation) owner) := by
  have listed := Stmt.list_labels_recast relocation routine.scope.info.id routine.scope.body
  unfold Routine.draft
  change Tracks _ _ _ (declareLabels [] (Stmt.listLabels
    (relocation.scope routine.scope.info.id)
    (Stmt.listRecast relocation.unbound routine.scope.body)) >>= _)
  rw [listed]
  refine (labels [] _).bind fun labels => ?_
  refine (parameters _ [] _).bind fun found => ?_
  exact (stmts faithful _ (List.cons_ne_nil _ _) _).bind (close faithful)

end Checked.Tracks

mutual

@[simp] theorem Stmt.returns_recast (cast : Recast) (stmt : Stmt) :
    (stmt.recast cast).returns = stmt.returns := by
  cases stmt with
  | block scope body =>
      simp only [Stmt.recast, Stmt.returns, Stmt.any_returns_recast]
      rfl
  | branch info first condition scope body rest =>
      simp only [Stmt.recast, Stmt.returns, Stmt.any_returns_recast, Alternatives.returns_recast]
      rfl
  | _ => rfl

theorem Stmt.any_returns_recast (cast : Recast) (body : List Stmt) :
    Stmt.anyReturns (Stmt.listRecast cast body) = Stmt.anyReturns body := by
  cases body with
  | nil => rfl
  | cons stmt rest =>
      simp only [Stmt.listRecast, Stmt.anyReturns, Stmt.returns_recast, Stmt.any_returns_recast]

theorem Alternatives.returns_recast (cast : Recast) (rest : Alternatives) :
    (rest.recast cast).returns = rest.returns := by
  cases rest with
  | done => rfl
  | elseIf span condition scope body rest =>
      simp only [Alternatives.recast, Alternatives.returns, Stmt.any_returns_recast,
        Alternatives.returns_recast]
  | otherwise span scope body => exact Stmt.any_returns_recast cast body

end

theorem Stmt.label_start_recast (relocation : Relocation) (stmt : Stmt) :
    (stmt.recast relocation.bound).labelStart? = stmt.labelStart?.map relocation.inner := by
  cases stmt <;> rfl

section

variable {near nearOther far farOther : Relocation} {body other : List Stmt}

/-- Bodies have labels in the same places among their statements, however they are moved. -/
theorem labels_meet
    (close : Stmt.listRecast near.bound body = Stmt.listRecast nearOther.bound other)
    (aligned : Stmt.listRecast far.bound body = Stmt.listRecast farOther.bound other)
    {stmt : Stmt} (inside : stmt ∈ Stmt.listStatements other) {start : Nat}
    (label : stmt.labelStart? = some start) :
    ∃ met, near.inner met = nearOther.inner start ∧ far.inner met = farOther.inner start := by
  have same (first second : Relocation)
      (equal : Stmt.listRecast first.bound body = Stmt.listRecast second.bound other) :
      (Stmt.listStatements body).map (fun stmt => stmt.labelStart?.map first.inner) =
        (Stmt.listStatements other).map fun stmt => stmt.labelStart?.map second.inner := by
    have listed := congrArg (fun body => (Stmt.listStatements body).map Stmt.labelStart?) equal
    simpa only [Stmt.list_statements_recast, List.map_map, Function.comp_def,
      Stmt.label_start_recast] using listed
  obtain ⟨index, bound, rfl⟩ := List.getElem_of_mem inside
  have size := congrArg List.length (same near nearOther close)
  simp only [List.length_map] at size
  rw [← size] at bound
  have here := List.getElem_of_eq (same near nearOther close) (by simpa using bound)
  have there := List.getElem_of_eq (same far farOther aligned) (by simpa using bound)
  simp only [List.getElem_map, label, Option.map_some, Option.map_eq_some_iff] at here there
  obtain ⟨met, found, here⟩ := here
  obtain ⟨again, known, there⟩ := there
  obtain rfl : met = again := Option.some.inj (found.symm.trans known)
  exact ⟨met, here, there⟩

/-- As many regions of dead code are found in bodies that meet, and both return or neither does. -/
theorem settled_meet (faithful : near.Faithful) (uniform : near.Uniform)
    (faithfulOther : nearOther.Faithful) (uniformOther : nearOther.Uniform)
    (ordered : far.Ordered) (orderedOther : farOther.Ordered)
    (close : Stmt.listRecast near.bound body = Stmt.listRecast nearOther.bound other)
    (aligned : Stmt.listRecast far.bound body = Stmt.listRecast farOther.bound other) :
    (settleBody body).2.length = (settleBody other).2.length ∧
      Stmt.anyReturns (settleBody body).1 = Stmt.anyReturns (settleBody other).1 := by
  have targets : (Use.targets (Stmt.listUses body)).map near.inner =
      (Use.targets (Stmt.listUses other)).map nearOther.inner := by
    rw [← Stmt.list_targets_recast uniform, ← Stmt.list_targets_recast uniformOther, close]
  have injective := ordered.rising.injective
  have alike : AimsAlike far.inner (Use.targets (Stmt.listUses body))
      ((Use.targets (Stmt.listUses body)).map far.inner) body :=
    fun _ _ _ _ => List.mem_map_of_injective injective
  have alikeOther : AimsAlike farOther.inner (Use.targets (Stmt.listUses other))
      ((Use.targets (Stmt.listUses body)).map far.inner) other := by
    intro stmt inside start label
    obtain ⟨met, here, there⟩ := labels_meet close aligned inside label
    rw [← there, List.mem_map_of_injective injective, ← List.mem_map_of_injective faithful.inner,
      targets, here, List.mem_map_of_injective faithfulOther.inner]
  have begun (place : Nat → Nat) : Flow.Moves place {} {} := ⟨rfl, rfl, rfl⟩
  have first := Stmt.list_settle_recast ordered (begun _) body alike
  have second := Stmt.list_settle_recast orderedOther (begun _) other alikeOther
  rw [← aligned] at second
  have values := first.value.symm.trans second.value
  refine ⟨first.regions.symm.trans second.regions, ?_⟩
  rw [← Stmt.any_returns_recast far.bound (settleBody body).1,
    ← Stmt.any_returns_recast farOther.bound (settleBody other).1]
  exact congrArg Stmt.anyReturns values

end

/-- Two functions or handlers come to be the same, and so does what they see around them. -/
structure Routine.Meet (first second : Relocation) (outlook beyond : Outlook)
    (routine other : Routine) : Prop where
  around : outlook.relocate first = beyond.relocate second
  routine : routine.relocate first = other.relocate second

namespace Routine

variable {first second : Relocation} {outlook beyond : Outlook} {routine other : Routine}

theorem Meet.drafts (meet : Meet first second outlook beyond routine other) (owner : Owner)
    (faithful : first.Faithful) (faithfulOther : second.Faithful) :
    Stmt.listRecast first.bound (routine.draft outlook owner).value =
        Stmt.listRecast second.bound (other.draft beyond owner).value ∧
      (first.Uniform → second.Uniform →
        (routine.draft outlook owner).problems = (other.draft beyond owner).problems) := by
  have one := Checked.Tracks.draft faithful outlook owner routine
  have two := Checked.Tracks.draft faithfulOther beyond owner other
  rw [← meet.around, ← meet.routine] at two
  exact ⟨one.value.symm.trans two.value, fun uniform uniformOther =>
    (one.problems uniform).symm.trans (two.problems uniformOther)⟩

/-- Functions and handlers that meet have the same problems, and both return or neither does. One
relocation keeps apart whatever is declared, the other keeps the order of the statements. -/
theorem check_meet {near nearOther far farOther : Relocation} (owner : Owner)
    (faithful : near.Faithful) (uniform : near.Uniform) (faithfulOther : nearOther.Faithful)
    (uniformOther : nearOther.Uniform) (ordered : far.Ordered) (orderedOther : farOther.Ordered)
    (scope : Function.Injective far.scope) (scopeOther : Function.Injective farOther.scope)
    (close : Meet near nearOther outlook beyond routine other)
    (aligned : Meet far farOther outlook beyond routine other) :
    (routine.check outlook owner).problems = (other.check beyond owner).problems ∧
      Stmt.anyReturns (routine.check outlook owner).value.2 =
        Stmt.anyReturns (other.check beyond owner).value.2 := by
  obtain ⟨bodies, problems⟩ := close.drafts owner faithful faithfulOther
  obtain ⟨moved, _⟩ := aligned.drafts owner ⟨ordered.rising.injective, scope⟩
    ⟨orderedOther.rising.injective, scopeOther⟩
  obtain ⟨regions, returns⟩ := settled_meet faithful uniform faithfulOther uniformOther ordered
    orderedOther bodies moved
  rw [check_problems, check_problems, check_value, check_value, problems uniform uniformOther,
    regions]
  exact ⟨rfl, returns⟩

end Routine

end Lsl
