import Lsl.Proofs.Checking.Provenance
import Lsl.Proofs.Parsing.Turns
import Lsl.Proofs.Syntax.Outline

/-!
A checked script is flagged as faulty exactly when an error was reported, and with a node all nodes
around it are flagged. What is reported about an expression stands at one of its nodes, and an
expression of a script that was read is left without a type only if an error is reported there.
-/

set_option autoImplicit false

namespace Lsl

/-- All nodes of an expression stand at one of the places. -/
def Expr.Lies (places : List Span) (expr : Expr) : Prop := ∀ node ∈ expr.nodes, node.span ∈ places

/-- What is reported stands at one of the places, and the result holds. -/
structure Checked.Lands {α : Type} (places : List Span) (holds : α → Prop)
    (checked : Checked α) : Prop where
  reports : ∀ report ∈ checked.reports, report.span ∈ places
  value : holds checked.value

namespace Expr.Lies

variable {places : List Span} {expr : Expr}

theorem iff_parts :
    expr.Lies places ↔ expr.span ∈ places ∧ ∀ part ∈ expr.parts, part.Lies places := by
  simp only [Lies, nodes_eq expr, List.forall_mem_cons, List.forall_mem_flatMap]

theorem with_info (lies : expr.Lies places) {info : ExprInfo} (same : info.span = expr.span) :
    (expr.withInfo info).Lies places := by
  have whole := iff_parts.mp lies
  refine iff_parts.mpr ⟨?_, ?_⟩
  · have moved : (expr.withInfo info).span = expr.span := by
      rw [← same]
      cases expr <;> rfl
    rw [moved]
    exact whole.1
  · have kept : (expr.withInfo info).parts = expr.parts := by
      cases expr <;> rfl
    rw [kept]
    exact whole.2

theorem blame (lies : expr.Lies places) (problem : Problem) :
    (expr.blame problem).Lands places (Lies places) where
  reports := by
    intro report member
    obtain rfl := List.mem_singleton.mp member
    exact (iff_parts.mp lies).1
  value := lies.with_info rfl

end Expr.Lies

namespace Checked.Lands

variable {α β : Type} {places : List Span}

theorem pure {holds : α → Prop} {value : α} (fine : holds value) :
    (Pure.pure value : Checked α).Lands places holds where
  reports := fun _ member => nomatch member
  value := fine

theorem bind {before : α → Prop} {after : β → Prop} {first : Checked α} {next : α → Checked β}
    (lands : first.Lands places before)
    (follows : ∀ value, before value → (next value).Lands places after) :
    (first >>= next).Lands places after := by
  obtain ⟨reports, value⟩ := follows first.value lands.value
  refine ⟨?_, value⟩
  intro report member
  exact (List.mem_append.mp member).elim (lands.reports report) (reports report)

theorem demand {expr : Expr} (lies : expr.Lies places) (admits : ValueType → Bool)
    (problem : ValueType → Problem) :
    (expr.demand admits problem).Lands places (Expr.Lies places) := by
  unfold Expr.demand
  split
  · split
    · exact .pure lies
    · exact lies.blame _
  · exact .pure lies

theorem target {expr : Expr} (lies : expr.Lies places) :
    (checkTarget expr).Lands places (·.1.Lies places) := by
  match expr with
  | .reference info name binding =>
      cases binding with
      | constant => exact (lies.blame _).bind fun _ lies => .pure lies
      | _ => exact .pure lies
  | .component info part target =>
      obtain ⟨here, inside⟩ := Expr.Lies.iff_parts.mp lies
      refine (Lands.target (inside target List.mem_cons_self)).bind fun checked inner => .pure ?_
      exact Expr.Lies.iff_parts.mpr ⟨here, by simpa [Expr.parts] using inner⟩
  | .integer _ _ | .hex _ _ | .float _ _ | .string _ _ | .vector _ _ _ _ | .rotation _ _ _ _ _
  | .list _ _ _ | .call _ _ _ _ _ | .binary _ _ _ _ | .prefixed _ _ _ | .postfixed _ _ _
  | .cast _ _ _ | .grouped _ _ => exact .pure lies

theorem fit_arguments {function : String} {place : Nat} {arguments : List Expr}
    {types : List ValueType} (lie : ∀ argument ∈ arguments, argument.Lies places) :
    (fitArguments function place arguments types).Lands places
      fun arguments => ∀ argument ∈ arguments, argument.Lies places := by
  induction arguments generalizing place types with
  | nil => cases types <;> exact .pure lie
  | cons argument arguments induction =>
      cases types with
      | nil => exact .pure lie
      | cons expected types =>
          refine (Lands.demand (lie argument List.mem_cons_self) _ _).bind fun first here => ?_
          refine (induction fun later member => lie later (List.mem_cons_of_mem _ member)).bind
            fun rest others => .pure ?_
          exact List.forall_mem_cons.mpr ⟨here, others⟩

section

variable {view : View} {info : ExprInfo} (here : info.span ∈ places)

include here

section

variable {name : String} {inner : Span} {arguments : List Expr}
  (lie : ∀ argument ∈ arguments, argument.Lies places)

include lie

theorem passed {type : Option ValueType} {target : CallTarget} {expected : List ValueType} :
    (checkArguments { info with type } name inner arguments target expected).Lands places
      (Expr.Lies places) := by
  have known {arguments : List Expr} (lie : ∀ argument ∈ arguments, argument.Lies places) :
      (Expr.call { info with type } name inner arguments target).Lies places :=
    Expr.Lies.iff_parts.mpr ⟨here, lie⟩
  unfold checkArguments
  split
  · exact (known lie).blame _
  · exact (fit_arguments lie).bind fun _ lie => .pure (known lie)

theorem library_call {types : List ValueType} :
    (checkLibraryCall view info name inner arguments types).Lands places (Expr.Lies places) := by
  have known (type : Option ValueType) (target : CallTarget) :
      (Expr.call { info with type } name inner arguments target).Lies places :=
    Expr.Lies.iff_parts.mpr ⟨here, lie⟩
  unfold checkLibraryCall
  split
  · unfold checkUnresolvedCall
    dsimp only
    split
    · split
      · exact (known _ _).blame _
      · exact passed here lie
    · exact (known _ _).blame _
  · split
    · have said : (report info.span (.deprecatedFunction name)).Lands places fun _ => True := by
        refine ⟨fun report member => ?_, trivial⟩
        obtain rfl := List.mem_singleton.mp member
        exact here
      exact said.bind fun _ _ => .pure (known _ _)
    · exact .pure (known _ _)

theorem call :
    (checkCall view info name inner arguments).Lands places (Expr.Lies places) := by
  have unresolved : (Expr.call info name inner arguments .unresolved).Lies places :=
    Expr.Lies.iff_parts.mpr ⟨here, lie⟩
  unfold checkCall
  split
  · exact passed here lie
  · dsimp only
    split
    · exact unresolved.blame _
    · split
      · exact .pure unresolved
      · exact library_call here lie

end

theorem binary {operator : BinaryOperator} {left right : Expr} (first : left.Lies places)
    (second : right.Lies places) :
    (checkBinary info operator left right).Lands places (Expr.Lies places) := by
  have known (type : Option ValueType) {left : Expr} (first : left.Lies places) :
      (Expr.binary { info with type } operator left right).Lies places :=
    Expr.Lies.iff_parts.mpr ⟨here, by simpa [Expr.parts] using ⟨first, second⟩⟩
  have typed {left : Expr} (first : left.Lies places) :
      (typeOperation info operator left right).Lands places (Expr.Lies places) := by
    unfold typeOperation
    split
    · dsimp only
      generalize (if operator.isAssignment then operator.assignedResult? _ _
        else operator.result? _ _) = result
      split
      · exact .pure (known _ first)
      · exact (known _ first).blame _
    · exact .pure (known _ first)
  unfold checkBinary
  split
  · refine (target first).bind ?_
    rintro ⟨left, writable⟩ first
    dsimp only
    split
    · exact typed first
    · exact .pure (known _ first)
  · exact typed first

theorem prefixed {operator : PrefixOperator} {operand : Expr} (inside : operand.Lies places) :
    (checkPrefixed info operator operand).Lands places (Expr.Lies places) := by
  have known (type : Option ValueType) {operand : Expr} (inside : operand.Lies places) :
      (Expr.prefixed { info with type } operator operand).Lies places :=
    Expr.Lies.iff_parts.mpr ⟨here, by simpa [Expr.parts] using inside⟩
  have typed {operand : Expr} (inside : operand.Lies places) (type : ValueType) :
      (typePrefixed info operator operand type).Lands places (Expr.Lies places) := by
    unfold typePrefixed
    dsimp only
    split
    · exact .pure (known _ inside)
    · exact (known _ inside).blame _
  unfold checkPrefixed
  split
  · exact .pure (known _ inside)
  · split
    · refine (target inside).bind ?_
      rintro ⟨operand, writable⟩ inside
      dsimp only
      split
      · exact typed inside _
      · split
        · exact .pure (known _ inside)
        · exact (known _ inside).blame _
    · exact typed inside _

theorem postfixed {operator : PostfixOperator} {operand : Expr} (inside : operand.Lies places) :
    (checkPostfixed info operator operand).Lands places (Expr.Lies places) := by
  have known (type : Option ValueType) {operand : Expr} (inside : operand.Lies places) :
      (Expr.postfixed { info with type } operator operand).Lies places :=
    Expr.Lies.iff_parts.mpr ⟨here, by simpa [Expr.parts] using inside⟩
  unfold checkPostfixed
  refine (target inside).bind ?_
  rintro ⟨operand, writable⟩ inside
  dsimp only
  split
  · split
    · exact .pure (known _ inside)
    · exact (known _ inside).blame _
  · exact .pure (known _ inside)

theorem cast {type : ValueType} {operand : Expr} (inside : operand.Lies places) :
    (checkCast info type operand).Lands places (Expr.Lies places) := by
  have known (found : Option ValueType) :
      (Expr.cast { info with type := found } type operand).Lies places :=
    Expr.Lies.iff_parts.mpr ⟨here, by simpa [Expr.parts] using inside⟩
  unfold checkCast
  split
  · exact .pure (known _)
  · dsimp only
    split
    · exact .pure (known _)
    · exact (known _).blame _

theorem component {part : Component} {operand : Expr} (inside : operand.Lies places) :
    (checkComponent info part operand).Lands places (Expr.Lies places) := by
  have known (type : Option ValueType) :
      (Expr.component { info with type } part operand).Lies places :=
    Expr.Lies.iff_parts.mpr ⟨here, by simpa [Expr.parts] using inside⟩
  unfold checkComponent
  split
  · exact .pure (known _)
  · split
    · exact .pure (known _)
    · exact (known _).blame _

end

theorem exprs {view : View} {demand : Expr → Checked Expr} {exprs : List Expr}
    (demanded : ∀ expr, expr.Lies places → (demand expr).Lands places (Expr.Lies places))
    (each : ∀ expr ∈ exprs, (checkExpr view expr).Lands places (Expr.Lies places)) :
    (checkExprs view demand exprs).Lands places fun exprs => ∀ expr ∈ exprs, expr.Lies places := by
  induction exprs with
  | nil => exact .pure (by simp)
  | cons expr rest induction =>
      refine ((each expr List.mem_cons_self).bind demanded).bind fun first here => ?_
      refine (induction fun expr member => each expr (List.mem_cons_of_mem _ member)).bind
        fun rest others => .pure ?_
      exact List.forall_mem_cons.mpr ⟨here, others⟩

end Checked.Lands

namespace Expr

variable {view : View}

/-- What is reported about an expression stands at one of its nodes. -/
theorem check_lands {places : List Span} {expr : Expr} (lies : expr.Lies places) :
    (checkExpr view expr).Lands places (Lies places) := by
  induction expr using parts_induction with
  | step expr induction =>
      obtain ⟨here, inside⟩ := Lies.iff_parts.mp lies
      have parts (part : Expr) (member : part ∈ expr.parts) :
          (checkExpr view part).Lands places (Lies places) :=
        induction part member (inside part member)
      have float (part : Expr) (member : part ∈ expr.parts) :
          (checkExpr view part >>= demandFloat).Lands places (Lies places) :=
        (parts part member).bind fun _ lies => .demand lies _ _
      cases expr with
      | integer info raw | hex info raw | float info raw | string info raw =>
          exact .pure (Lies.iff_parts.mpr ⟨here, inside⟩)
      | vector info x y z =>
          refine (float x (by simp [Expr.parts])).bind fun _ first => ?_
          refine (float y (by simp [Expr.parts])).bind fun _ second => ?_
          refine (float z (by simp [Expr.parts])).bind fun _ third => ?_
          exact .pure (Lies.iff_parts.mpr ⟨here, by simpa [Expr.parts] using ⟨first, second, third⟩⟩)
      | rotation info x y z s =>
          refine (float x (by simp [Expr.parts])).bind fun _ first => ?_
          refine (float y (by simp [Expr.parts])).bind fun _ second => ?_
          refine (float z (by simp [Expr.parts])).bind fun _ third => ?_
          refine (float s (by simp [Expr.parts])).bind fun _ fourth => ?_
          exact .pure (Lies.iff_parts.mpr
            ⟨here, by simpa [Expr.parts] using ⟨first, second, third, fourth⟩⟩)
      | list info inner elements =>
          refine (Checked.Lands.exprs (fun _ lies => .demand lies _ _) parts).bind fun _ lie => ?_
          exact .pure (Lies.iff_parts.mpr ⟨here, lie⟩)
      | reference info name binding =>
          have known (type : Option ValueType) (binding : Binding) :
              (Expr.reference { info with type } name binding).Lies places :=
            Lies.iff_parts.mpr ⟨here, by simp [Expr.parts]⟩
          rw [checkExpr, checkReference]
          split
          · exact .pure (known _ _)
          · exact (known _ _).blame _
      | call info name inner arguments target =>
          refine (Checked.Lands.exprs (fun _ lies => .pure lies) parts).bind fun _ lie => ?_
          exact .call here lie
      | binary info operator left right =>
          refine (parts left (by simp [Expr.parts])).bind fun _ first => ?_
          refine (parts right (by simp [Expr.parts])).bind fun _ second => ?_
          exact .binary here first second
      | prefixed info operator operand =>
          exact (parts operand (by simp [Expr.parts])).bind fun _ inner => .prefixed here inner
      | postfixed info operator operand =>
          exact (parts operand (by simp [Expr.parts])).bind fun _ inner => .postfixed here inner
      | cast info type operand =>
          exact (parts operand (by simp [Expr.parts])).bind fun _ inner => .cast here inner
      | grouped info operand =>
          refine (parts operand (by simp [Expr.parts])).bind fun _ inner => .pure ?_
          exact Lies.iff_parts.mpr ⟨here, by simpa [Expr.parts] using inner⟩
      | component info part operand =>
          exact (parts operand (by simp [Expr.parts])).bind fun _ inner => .component here inner

theorem sound_node {expr node : Expr} (sound : expr.Sound) (inside : node ∈ expr.nodes) :
    node.Sound := by
  induction expr using parts_induction with
  | step expr induction =>
      rcases mem_nodes.mp inside with rfl | ⟨part, member, inside⟩
      · exact sound
      · exact induction part member (sound_part sound member) inside

/-- Where an expression is left without a type, an error is reported at one of its nodes. -/
theorem untyped_reported {expr : Expr} (sound : expr.Sound)
    (untyped : (checkExpr view expr).value.type? = none) :
    ∃ report ∈ (checkExpr view expr).reports, report.isError = true ∧
      ∃ node ∈ expr.nodes, report.span = node.span := by
  obtain ⟨report, member, wrong⟩ : ∃ report ∈ (checkExpr view expr).reports,
      report.isError = true := by
    by_contra none
    have silent : (checkExpr view expr).Silent := by simpa [Checked.Silent] using none
    have typed := (firm_check sound silent _ (mem_nodes_self _)).1.typed
    rw [untyped] at typed
    cases typed
  have lies : expr.Lies (expr.nodes.map span) := fun node inside => List.mem_map_of_mem inside
  obtain ⟨node, inside, same⟩ := List.mem_map.mp ((check_lands lies).reports report member)
  exact ⟨report, member, wrong, node, inside, same.symm⟩

end Expr

theorem Script.flagged_of_error {script : Script} {reports : List Diagnostic}
    (wrong : ∃ report ∈ reports, report.isError = true) :
    (script.concluded reports).hasErrors = true := by
  simp [Script.concluded, Script.hasErrors, List.any_eq_true.mpr wrong]

/-- What is reported is concluded at the end, whether the source was read without an error or not. -/
theorem check_source_concluded (library : Library) (source : String) :
    ∃ script : Script, (checkSource library source).value =
      script.concluded (checkSource library source).reports := by
  have whole (script : Script) : ∃ ended : Script,
      (validate library script).value = ended.concluded (validate library script).reports :=
    ⟨((validateScript script).run { library }).1, rfl⟩
  unfold checkSource
  generalize (parse (tokenize source)).1 = script
  generalize syntaxErrors source = errors
  cases errors with
  | nil => exact whole script
  | cons error errors => exact ⟨script, rfl⟩

/-- A checked script is flagged exactly when an error was reported. A node is flagged only where all
nodes around it are. An expression that was read is left without a type only where an error is
reported at it or inside of it. -/
theorem flags_exact_and_closed (library : Library) (source : String) :
    ((checkSource library source).value.hasErrors = true ↔
      ∃ report ∈ (checkSource library source).reports, report.isError = true) ∧
    (∀ occurrence ∈ (checkSource library source).value.outline,
      occurrence.node.hasErrors = true → ∀ outer ∈ occurrence.around, outer.hasErrors = true) ∧
    ∀ occurrence ∈ (parse (tokenize source)).1.outline, ∀ expr, occurrence.node = .expr expr →
      ∀ view : View, (checkExpr view expr).value.type? = none →
        ∃ report ∈ (checkExpr view expr).reports, report.isError = true ∧
          ∃ node ∈ expr.nodes, report.span = node.span := by
  refine ⟨⟨?_, ?_⟩, ?_, ?_⟩
  · intro flagged
    by_contra none
    have accepted : Accepted library source := by simpa [Accepted, Checked.Silent] using none
    rw [accepted.traced.holds.whole] at flagged
    cases flagged
  · intro wrong
    obtain ⟨script, ended⟩ := check_source_concluded library source
    rw [ended]
    exact Script.flagged_of_error wrong
  · intro occurrence member wrong outer inside
    have rises := (Script.outlines _ occurrence member).1 wrong
    exact (rises.2 outer inside).resolve_left List.not_mem_nil
  · intro occurrence member expr same view untyped
    obtain ⟨root, inside, node⟩ :=
      List.mem_flatMap.mp ((Script.outlines _ occurrence member).2 expr same)
    exact Expr.untyped_reported (Expr.sound_node (parse_exprs_sound _ root inside) node) untyped

end Lsl
