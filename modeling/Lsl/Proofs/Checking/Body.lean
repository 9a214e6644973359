import Lsl.Checking.Script
import Lsl.Proofs.Checking.Statement
import Lsl.Proofs.Parsing.Script

/-!
Whole bodies. A body that was read in order and checked without errors has its jumps and names
bound, and its statements are marked for the labels that its jumps go to.
-/

set_option autoImplicit false

namespace Lsl

/-- All that is known of the body of a function or handler once its script is accepted. -/
structure CodeScope.Resolved (scope : CodeScope) : Prop where
  order : (Stmt.listStarts scope.body).Pairwise (· < ·)
  bound : Bound (Stmt.labelStarts scope.body) scope.body
  named : Scoped [] scope.body
  settled : ∃ targets, Settled targets {} scope.body ∧
    ∀ stmt ∈ Stmt.listStatements scope.body, ∀ target, stmt.target? = some target →
      target.label ∈ targets

theorem CodeScope.Resolved.distinct {scope : CodeScope} (resolved : scope.Resolved) :
    Stmt.Distinct scope.body :=
  resolved.order.imp Nat.ne_of_lt

theorem Alternatives.labels_eq (rest : Alternatives) :
    rest.labels = rest.parts.flatMap fun part => Stmt.listLabels part.info.id part.body := by
  cases rest with
  | done => rfl
  | elseIf _ _ _ _ rest =>
      rw [Alternatives.labels, rest.labels_eq]
      rfl
  | otherwise _ _ _ => simp [Alternatives.labels, Alternatives.parts]

namespace Stmt

theorem labels_cases {id : Nat} {stmt : Stmt} {label : LabelPlace}
    (member : label ∈ stmt.labels id) :
    (label.scope = id ∧ stmt.labelStart? = some label.start) ∨
      ∃ part ∈ stmt.parts, label ∈ listLabels part.info.id part.body := by
  cases stmt with
  | label info name =>
      obtain rfl := List.mem_singleton.mp member
      exact .inl ⟨rfl, rfl⟩
  | branch info first condition scope body rest =>
      rw [labels, rest.labels_eq] at member
      refine .inr (List.mem_flatMap.mp ?_)
      simpa [parts] using member
  | _ => simp_all [labels, parts]

/-- A label stands in a scope under the number of that scope. -/
theorem label_place {id : Nat} {body : List Stmt} {label : LabelPlace}
    (member : label ∈ listLabels id body) :
    (label.scope = id ∧ label.start ∈ labelStarts body) ∨
      ∃ scope ∈ listScopes body, label.scope = scope.info.id ∧
        label.start ∈ labelStarts scope.body := by
  induction body using Stmt.list_induction generalizing id with
  | nil => simp [listLabels] at member
  | cons stmt rest inner outer =>
      rcases List.mem_append.mp member with own | later
      · rcases labels_cases own with ⟨same, starts⟩ | ⟨part, partMember, inside⟩
        · exact .inl ⟨same, mem_label_starts.mpr ⟨stmt, List.mem_cons_self, starts⟩⟩
        · rcases inner part partMember inside with place | ⟨scope, scopeMember, place⟩
          · exact .inr ⟨part, mem_list_scopes_cons.mpr (.inl ⟨part, partMember, .inl rfl⟩), place⟩
          · exact .inr ⟨scope,
              mem_list_scopes_cons.mpr (.inl ⟨part, partMember, .inr scopeMember⟩), place⟩
      · rcases outer later with ⟨same, place⟩ | ⟨scope, scopeMember, place⟩
        · obtain ⟨found, inside, starts⟩ := mem_label_starts.mp place
          exact .inl ⟨same, mem_label_starts.mpr ⟨found, List.mem_cons_of_mem _ inside, starts⟩⟩
        · exact .inr ⟨scope, mem_list_scopes_cons.mpr (.inr scopeMember), place⟩

end Stmt

theorem declare_labels_subset (declared labels : List LabelPlace) :
    ∀ label ∈ (declareLabels declared labels).value, label ∈ declared ∨ label ∈ labels := by
  induction labels generalizing declared with
  | nil =>
      intro label member
      exact .inl member
  | cons first labels induction =>
      intro label member
      unfold declareLabels at member
      split at member
      · exact (induction declared label member).imp_right (List.mem_cons_of_mem _)
      · rcases induction _ label member with known | later
        · rcases List.mem_append.mp known with known | known
          · exact .inl known
          · obtain rfl := List.mem_singleton.mp known
            exact .inr List.mem_cons_self
        · exact .inr (List.mem_cons_of_mem _ later)

/-- The labels under the number of a scope stand directly in it. -/
theorem labels_of_scope {root : CodeScope} (order : root.InOrder) {scope : CodeScope}
    (inside : scope ∈ root.scopes) {label : LabelPlace}
    (member : label ∈ Stmt.listLabels root.info.id root.body)
    (numbered : label.scope = scope.info.id) : label.start ∈ Stmt.labelStarts scope.body := by
  have distinct : (root.scopes.map (·.info.id)).Nodup := order.ids.imp Nat.ne_of_lt
  obtain ⟨holder, holderInside, same, place⟩ : ∃ holder ∈ root.scopes,
      label.scope = holder.info.id ∧ label.start ∈ Stmt.labelStarts holder.body := by
    rcases Stmt.label_place member with place | ⟨holder, holderInside, place⟩
    · exact ⟨root, List.mem_cons_self, place⟩
    · exact ⟨holder, List.mem_cons_of_mem _ holderInside, place⟩
  have equal : holder = scope :=
    List.inj_on_of_nodup_map distinct holderInside inside (same.symm.trans numbered)
  rwa [← equal]

namespace Stmt

theorem target_used {stmt : Stmt} {body : List Stmt} (inside : stmt ∈ listStatements body)
    {target : JumpTarget} (goes : stmt.target? = some target) :
    target.label ∈ (listUses body).map (·.declaration) := by
  cases stmt with
  | jump info label found =>
      obtain rfl : found = some target := goes
      exact List.mem_map.mpr ⟨_, uses_subset inside (List.mem_singleton_self _), rfl⟩
  | _ => simp [target?] at goes

end Stmt

theorem resolved_of_settled {info : ScopeInfo} {body : List Stmt}
    (order : (Stmt.listStarts body).Pairwise (· < ·)) (fresh : Stmt.Fresh body)
    (bound : Bound (Stmt.labelStarts body) body) (named : Scoped [] body) :
    CodeScope.Resolved ⟨info, (settleBody body).1⟩ := by
  have same : Stmt.listMarked .live (settleBody body).1 = Stmt.listMarked .live body :=
    Stmt.list_marked_settle _ _ _ body
  refine ⟨?_, ?_, ?_, _, settled_of_fresh _ {} body fresh, ?_⟩
  · rwa [← Stmt.list_starts_marked .live, same, Stmt.list_starts_marked]
  · rwa [← bound_marked, ← Stmt.label_starts_marked .live, same, bound_marked,
      Stmt.label_starts_marked]
  · rwa [← scoped_marked, same, scoped_marked]
  · intro stmt inside target goes
    obtain ⟨source, sourceInside, equal⟩ := Stmt.settle_statement inside
    apply Stmt.target_used sourceInside
    rw [← Stmt.target_marked .live, equal, Stmt.target_marked, goes]

theorem declare_parameters_locals {library : Library} {declared : List Visible}
    (plain : ∀ found ∈ declared, found.binding.local? = none) (members : List ParameterDecl) :
    ∀ found ∈ (declareParameters library declared members).value.2,
      found.binding.local? = none := by
  induction members generalizing declared with
  | nil => exact plain
  | cons decl members induction =>
      have extended : ∀ faulty : Bool, ∀ found ∈ (if faulty then declared else
          declared ++ [⟨decl.name, decl.type, .parameter decl.start⟩]),
            found.binding.local? = none := by
        intro faulty found member
        split at member
        · exact plain found member
        · rcases List.mem_append.mp member with member | member
          · exact plain found member
          · obtain rfl := List.mem_singleton.mp member
            rfl
      exact induction (extended _)

theorem check_body_resolved {outlook : Outlook} {owner : Owner} {parameters : ParameterList}
    {scope : ScopeInfo} {body : List Stmt}
    (plain : ∀ found ∈ outlook.view.globals, found.binding.local? = none)
    (order : CodeScope.InOrder ⟨scope, body⟩) (fresh : Stmt.Fresh body)
    (silent : (checkBody outlook owner parameters scope body).Silent) :
    CodeScope.Resolved ⟨scope, (checkBody outlook owner parameters scope body).value.2⟩ := by
  simp only [checkBody, Checked.silent_bind] at silent
  obtain ⟨_, _, ⟨checked, _⟩, _⟩ := silent
  simp only [checkBody, Checked.value_bind, Checked.value_pure, value_close_scope]
  refine resolved_of_settled ?_ (Stmt.fresh_check _ fresh) ?_ ?_
  · rw [Stmt.list_starts_check]
    exact order.starts
  · rw [Stmt.label_starts_check]
    have known : ∀ label ∈ (declareLabels [] (Stmt.listLabels scope.id body)).value,
        label ∈ Stmt.listLabels scope.id body := by
      intro label member
      simpa using declare_labels_subset [] _ label member
    refine bound_check checked ?_ ?_
    · intro label member near
      obtain numbered : label.scope = scope.id := by simpa using near
      exact labels_of_scope order List.mem_cons_self (known label member) numbered
    · intro inner inside label member numbered
      exact labels_of_scope order (List.mem_cons_of_mem _ inside) (known label member) numbered
  · refine scoped_check ⟨?_, plain⟩ body
    intro found member start bound
    have none := declare_parameters_locals (by simp) parameters.members found member
    simp [none] at bound

end Lsl
