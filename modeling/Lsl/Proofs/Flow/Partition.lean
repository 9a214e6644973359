import Lsl.Proofs.Checking.Boundaries
import Lsl.Proofs.Checking.Preservation
import Lsl.Proofs.Checking.Remarks
import Lsl.Proofs.Checking.Spelling
import Lsl.Proofs.Flow.Separation

/-!
What is reported as dead code parts the dead code of a script. Every statement that dies in a live
scope lies in exactly one reported span, with everything in it marked as it is; a reported span is
no larger than a run of such statements, and nothing live starts in it.
-/

set_option autoImplicit false

namespace Lsl

def Diagnostic.deadCode? (report : Diagnostic) : Option Span :=
  match report.problem with
  | .deadCode => some report.span
  | _ => none

/-- The spans that are reported as dead code. -/
def Checked.deadCode {α : Type} (checked : Checked α) : List Span :=
  checked.reports.filterMap Diagnostic.deadCode?

theorem Checked.dead_code_eq {α : Type} (checked : Checked α) :
    checked.deadCode = checked.remarks.filterMap Diagnostic.deadCode? := by
  refine checked.filter_map_remarks fun report other => ?_
  obtain ⟨problem, span⟩ := report
  cases problem with
  | deadCode => cases other
  | _ => rfl

def CodeScope.deadInside (scope : CodeScope) : List Span :=
  scope.scopes.flatMap CodeScope.deadSpans

/-- Nothing is marked in the scope, and all of it was read. -/
def CodeScope.Unmarked (scope : CodeScope) : Prop :=
  scope.info.reach = .live ∧ Stmt.Fresh scope.body

namespace Inspection

variable {inspection : Inspection}

theorem dead_code_result (unmarked : inspection.scope.Unmarked) :
    (inspection.result.remarks.filterMap Diagnostic.deadCode?).Perm inspection.body.deadInside := by
  have closing (scope : CodeScope) : scope.closing.filterMap Diagnostic.deadCode? = [] := by
    rw [CodeScope.closing, closeScope, List.filterMap_map]
    exact List.filterMap_eq_nil_iff.mpr fun _ _ => rfl
  have regions (spans : List Span) :
      (spans.map fun span => (⟨.deadCode, span⟩ : Diagnostic)).filterMap Diagnostic.deadCode? =
        spans := by
    rw [List.filterMap_map]
    exact List.filterMap_some
  have told := inspection.remarks_result.filterMap Diagnostic.deadCode?
  rw [List.filterMap_append, regions, List.filterMap_flatMap] at told
  simp only [closing, List.flatMap_eq_nil_iff.mpr fun _ _ => rfl, List.nil_append] at told
  have fresh := Stmt.fresh_check inspection.frame unmarked.2
  exact told.trans (Stmt.settle_regions inspection.scope.info fresh unmarked.1)

theorem scope_settled (unmarked : inspection.scope.Unmarked) {scope : CodeScope}
    (inside : scope ∈ inspection.body.scopes) (live : scope.info.reach = .live) :
    ∃ targets, Settled targets {} scope.body := by
  have settled := settled_of_fresh ((Stmt.listUses inspection.unsettled).map (·.declaration)) {} _
    (Stmt.fresh_check inspection.frame unmarked.2)
  rcases List.mem_cons.mp inside with rfl | inside
  · exact ⟨_, settled⟩
  · exact ⟨_, (settled.scope_or_dead inside).resolve_right fun dead => dead.1 live⟩

end Inspection

section

variable {outlook : Outlook} {scope : CodeScope}

theorem check_members_bodies {state : String} {seen : List String} {members : List StateMember}
    (member : scope ∈ ((checkMembers outlook state seen members).value.filterMap
      StateMember.handler?).map HandlerDecl.ownScope) :
    scope ∈ (HandlerDecl.firsts seen ((checkMembers outlook state seen members).value.filterMap
        StateMember.handler?)).map HandlerDecl.ownScope ∨
      scope ∈ (members.filterMap StateMember.handler?).map HandlerDecl.ownScope := by
  induction members generalizing seen with
  | nil => cases member
  | cons first rest induction =>
      cases first with
      | broken span => exact induction member
      | handler decl =>
          have read (decl : HandlerDecl) (members : List StateMember) :
              (.handler decl :: members).filterMap StateMember.handler? =
                decl :: members.filterMap StateMember.handler? := rfl
          unfold checkMembers at member ⊢
          split
          · rename_i known
            have same : seen.contains ({ decl with faulty := true } : HandlerDecl).name := known
            rw [if_pos known] at member
            simp only [Checked.value_bind, Checked.value_pure, read] at member ⊢
            rw [HandlerDecl.firsts_seen same]
            rcases List.mem_cons.mp member with rfl | member
            · exact .inr List.mem_cons_self
            · exact (induction member).imp_right (List.mem_cons_of_mem _)
          · rename_i fresh
            have same : ¬ seen.contains (checkHandler outlook decl).value.name := fresh
            rw [if_neg fresh] at member
            simp only [Checked.value_bind, Checked.value_pure, read] at member ⊢
            rw [HandlerDecl.firsts_fresh same]
            rcases List.mem_cons.mp member with rfl | member
            · exact .inl List.mem_cons_self
            · exact (induction member).imp (List.mem_cons_of_mem _) (List.mem_cons_of_mem _)

theorem check_state_bodies {decl : StateDecl}
    (member : scope ∈ (checkState outlook decl).value.bodies) :
    scope ∈ (checkState outlook decl).value.examined ∨ scope ∈ decl.bodies := by
  simp only [StateDecl.bodies_eq] at member ⊢
  unfold checkState at member ⊢
  split
  · rename_i none
    rw [if_pos none] at member
    exact .inr member
  · rename_i some
    rw [if_neg some] at member
    exact check_members_bodies member

end

namespace Script

variable {library : Library} {script : Script}

theorem bodies_checked {body : CodeScope}
    (member : body ∈ (checkDeclarations library script).value.bodies) :
    body ∈ (checkDeclarations library script).value.examined ∨ body ∈ script.bodies := by
  rcases List.mem_append.mp member with function | handler
  · exact .inl (List.mem_append_left _ function)
  · obtain ⟨decl, known, inside⟩ := List.mem_flatMap.mp handler
    have known' : decl ∈ (checkDeclarations library script).value.allStates := known
    rw [check_declarations_states] at known'
    obtain ⟨listed, among, rfl⟩ := List.mem_map.mp known'
    refine (check_state_bodies inside).imp (fun examined => ?_) fun same => ?_
    · exact List.mem_append_right _ (List.mem_flatMap.mpr ⟨_, known, examined⟩)
    · exact listed_bodies among same

section

variable (read : ∀ body ∈ script.bodies, body.Unmarked)

include read

theorem dead_code_check_declarations : (checkDeclarations library script).deadCode.Perm
    ((checkDeclarations library script).value.examined.flatMap CodeScope.deadInside) := by
  rw [Checked.dead_code_eq, script.remarks_check_declarations, script.examined_inspections,
    List.filterMap_flatMap, List.flatMap_map]
  exact .flatMap_left _ fun inspection member =>
    Inspection.dead_code_result (read _ (inspections_read member).2)

theorem scope_settled {body scope : CodeScope}
    (member : body ∈ (checkDeclarations library script).value.examined)
    (inside : scope ∈ body.scopes) (live : scope.info.reach = .live) :
    ∃ targets, Settled targets {} scope.body := by
  rw [script.examined_inspections] at member
  obtain ⟨inspection, known, rfl⟩ := List.mem_map.mp member
  exact Inspection.scope_settled (read _ (inspections_read known).2) inside live

/-- All scopes of the checked script are followed. The body of a second handler of one event stays
unmarked. -/
theorem scope_followed {body scope : CodeScope}
    (member : body ∈ (checkDeclarations library script).value.bodies)
    (inside : scope ∈ body.scopes) : scope.Followed := by
  intro live
  rcases bodies_checked member with examined | same
  · exact .inr (scope_settled read examined inside live)
  · refine .inl fun stmt direct => ?_
    have own := Stmt.subset_list_statements direct
    have among : stmt ∈ Stmt.listStatements body.body := by
      rcases List.mem_cons.mp inside with rfl | inside
      · exact own
      · exact Stmt.mem_statements_of_scope inside own
    exact ((read body same).2 stmt among).2 _ stmt.reach_mem_marks

end

end Script

theorem Node.Throughout.orderly {places : List Position} {node : Node}
    (spanning : node.Throughout (Node.Spanning places))
    (apart : node.isScript = true → node.children.Pairwise Node.Apart)
    (starts : node.Throughout fun node => ∀ scope ∈ node.scope?,
      (scope.body.map Stmt.start).Pairwise (· < ·)) : node.Throughout Node.Orderly := by
  induction spanning with
  | @intro node here below induction =>
      refine .intro ⟨here.genuine.forward, here.within, ?_, ?_⟩ fun child member =>
        induction child member (by simp [node.children_part child member]) (starts.child member)
      · cases script : node.isScript with
        | true => exact apart script
        | false => exact (here.ordered script).imp .inl
      · intro own
        cases node with
        | scope info body =>
            have rising := List.pairwise_map.mp (starts.self _ rfl)
            refine (here.ordered rfl).and (List.pairwise_map.mpr ?_)
            simp only [Stmt.span_node]
            exact rising
        | _ => cases own

theorem parse_orderly (source : String) :
    (Node.script (parse (tokenize source)).1).Throughout Node.Orderly := by
  have marked := source_marked source
  refine (parse_spanning marked).1.orderly (fun _ => parse_apart marked) ?_
  refine Node.throughout_of_outline (fun _ => rfl) fun occurrence member scope own => ?_
  have among : scope ∈ outlineScopes (parse (tokenize source)).1.outline :=
    List.mem_filterMap.mpr ⟨occurrence, member, own⟩
  rw [Script.outline_scopes] at among
  obtain ⟨body, known, inside⟩ := List.mem_flatMap.mp among
  have order := (parse_bodies known).1.starts
  have starts : (Stmt.listStarts scope.body).Pairwise (· < ·) := by
    rcases List.mem_cons.mp inside with rfl | inside
    · exact order
    · exact Stmt.order_scope order inside
  exact starts.sublist ((Stmt.sublist_list_statements scope.body).map _)

section

variable {library : Library} {source : String}

theorem parse_unmarked (clean : syntaxErrors source = []) :
    ∀ body ∈ (parse (tokenize source)).1.bodies, body.Unmarked := fun _ known =>
  ⟨parse_bodies_live known (parse_silent clean), (parse_bodies known).2 (parse_silent clean)⟩

theorem check_source_orderly :
    (Node.script (checkSource library source).value).Throughout Node.Orderly := by
  have read := (Node.throughout_plain Node.orderly_plain _).mpr (parse_orderly source)
  have same : (Node.script (checkSource library source).value).plain =
      (Node.script (parse (tokenize source)).1).plain :=
    congrArg Node.script (plain_check_source library source)
  exact (Node.throughout_plain Node.orderly_plain _).mp (same ▸ read)

theorem check_source_row {body scope : CodeScope}
    (known : body ∈ (checkSource library source).value.bodies) (inside : scope ∈ body.scopes) :
    Stmt.InRow scope.body := by
  have among : scope ∈ outlineScopes (checkSource library source).value.outline := by
    rw [Script.outline_scopes]
    exact List.mem_flatMap.mpr ⟨body, known, inside⟩
  obtain ⟨found, member, own⟩ := List.mem_filterMap.mp among
  have orderly := check_source_orderly.downward [] (fun _ => rfl) found member
  obtain ⟨node, around⟩ := found
  cases node with
  | scope info body =>
      obtain rfl := Option.some.inj own
      exact orderly.row
  | _ => cases own

variable (clean : syntaxErrors source = [])

include clean

theorem check_source_parted : (Node.script (checkSource library source).value).Parted [] := by
  refine Node.parted check_source_orderly ?_ fun _ => rfl
  refine Node.throughout_of_outline (fun _ => rfl) fun occurrence member scope own => ?_
  have among : scope ∈ outlineScopes (checkSource library source).value.outline :=
    List.mem_filterMap.mpr ⟨occurrence, member, own⟩
  rw [Script.outline_scopes, check_source_eq clean, Script.bodies_concluded] at among
  obtain ⟨body, known, inside⟩ := List.mem_flatMap.mp among
  exact Script.scope_followed (parse_unmarked clean) known inside

/-- What is reported as dead code is the dead code of the bodies that are looked into, and so it is
among that in the outline. -/
theorem dead_code_check_source :
    (checkSource library source).deadCode.Perm
        ((checkSource library source).value.examined.flatMap CodeScope.deadInside) ∧
      ((checkSource library source).value.examined.flatMap CodeScope.deadInside).Sublist
        (deadIn (checkSource library source).value.outline) := by
  constructor
  · have told := @Script.dead_code_check_declarations library _ (parse_unmarked clean)
    rw [check_source_eq clean]
    generalize checkDeclarations library (parse (tokenize source)).1 = result at told ⊢
    exact told
  · rw [deadIn, Script.outline_scopes, List.flatMap_assoc]
    exact (Script.examined_sublist _).flatMap _

theorem settled_check_source {body scope : CodeScope}
    (examined : body ∈ (checkSource library source).value.examined) (inside : scope ∈ body.scopes)
    (live : scope.info.reach = .live) : ∃ targets, Settled targets {} scope.body := by
  rw [check_source_eq clean, Script.examined_concluded] at examined
  exact Script.scope_settled (parse_unmarked clean) examined inside live

end

end Lsl
