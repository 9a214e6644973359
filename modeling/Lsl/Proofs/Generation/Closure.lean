import Lsl.Proofs.Checking.Provenance
import Lsl.Proofs.Checking.Spelling
import Lsl.Proofs.Generation.Requests
import Lsl.Proofs.Target.Operations

/-!
The program of an accepted source is closed: it has every function that its code calls, every global
that its code names and every operation that its code makes, each once. A global is set after those
that its first value is made of.
-/

set_option autoImplicit false

namespace Lsl

namespace BinaryOperator

theorem assigned_type {operator : BinaryOperator} {left right value : ValueType}
    (modifies : operator.isModifying = true)
    (plain : ¬ (operator = .multiplyAssign ∧ left = .integer ∧ right = .float))
    (given : operator.underlying.result? left right = some value)
    (converts : value.convertsTo left = true) : value = left := by
  have decided : ∀ operator ∈ all, operator.isModifying = true → ∀ left right : ValueType,
      ¬ (operator = .multiplyAssign ∧ left = .integer ∧ right = .float) →
        ∀ value ∈ operator.underlying.result? left right, value.convertsTo left = true →
          value = left := by
    intro operator member modifies left right
    revert operator
    cases left <;> cases right <;> decide
  exact decided operator (by cases operator <;> decide) modifies left right plain value given
    converts

theorem called_lawful {operator : BinaryOperator} {left right result : ValueType}
    {operation : Operation} (typed : operator.type? left right = some result)
    (called : operator.called? left right result = some operation) :
    operation = ⟨left, operator.underlying, right, result⟩ ∧
      operator.underlying.result? left right = some result := by
  unfold called? at called
  split at called
  · cases called
  · rename_i proper
    simp only [not_or] at proper
    obtain ⟨_, noAssign, plain⟩ := proper
    obtain rfl := Option.some.inj called
    unfold type? at typed
    cases modifies : operator.isModifying with
    | false =>
        have same : operator.underlying = operator := by
          cases operator <;> first | rfl | cases modifies
        have free : operator.isAssignment = false := by
          simpa [isAssignment, modifies] using noAssign
        rw [free] at typed
        exact ⟨by simp, same.symm ▸ typed⟩
    | true =>
        have assigns : operator.isAssignment = true := by simp [isAssignment, modifies]
        simp only [assigns, if_true, assignedResult?, if_neg noAssign, if_neg plain] at typed
        split at typed
        · cases typed
        · split at typed
          · rename_i value given
            split at typed
            · rename_i converts
              obtain rfl := Option.some.inj typed
              obtain rfl := assigned_type modifies plain given converts
              simp [given]
            · cases typed
          · cases typed

end BinaryOperator

theorem Expr.Firm.called {info : ExprInfo} {operator : BinaryOperator} {left right : Expr}
    (firm : (Expr.binary info operator left right).Firm) {operation : Operation}
    (calls : operator.called? left.type right.type (info.type.getD .void) = some operation) :
    ∃ result, info.type = some result ∧
      operation = ⟨left.type, operator.underlying, right.type, result⟩ ∧
      operator.underlying.result? left.type right.type = some result := by
  obtain ⟨result, typed⟩ := Option.isSome_iff_exists.mp firm.typed
  have ruled : info.type = operator.type? left.type right.type := firm.ruled
  change info.type = some result at typed
  rw [typed, Option.getD_some] at calls
  exact ⟨result, typed, BinaryOperator.called_lawful (ruled.symm.trans typed) calls⟩

theorem filter_unique {α β : Type} [DecidableEq β] (key : α → β) {list : List α} {value : α}
    (distinct : (list.map key).Nodup) (member : value ∈ list) :
    list.filter (key · = key value) = [value] := by
  induction list with
  | nil => cases member
  | cons first rest induction =>
      obtain ⟨fresh, distinct⟩ := List.nodup_cons.mp distinct
      rcases List.mem_cons.mp member with rfl | member
      · have others : rest.filter (key · = key value) = [] := by
          refine List.filter_eq_nil_iff.mpr fun other inside => ?_
          simpa using fun same : key other = key value =>
            fresh (same ▸ List.mem_map_of_mem inside)
        rw [List.filter_cons_of_pos (by simp), others]
      · have other : key first ≠ key value := fun same =>
          fresh (same.symm ▸ List.mem_map_of_mem member)
        rw [List.filter_cons_of_neg (by simpa using other), induction distinct member]

namespace Script

variable {library : Library} {script : Script}

theorem program_asks {settings : Settings} (granted : Code → Prop)
    (own : ∀ node ∈ script.nodes, node.Asks ⟨library, settings, script.uses⟩ granted) :
    ∀ term ∈ (script.program library settings).terms, term.isRequest = true → granted term := by
  have inBody (body : CodeScope) (member : body ∈ script.bodies) (inHandler : Bool) :
      CodeStmt.AllAsk granted
        (bodyCode ⟨library, settings, script.uses⟩ inHandler body.info body.body) := by
    refine body_code_asks fun stmt inside expr among node within => own node ?_
    refine List.mem_flatMap.mpr ⟨expr, List.mem_append_right _ ?_, within⟩
    exact List.mem_flatMap.mpr ⟨body, member, List.mem_flatMap.mpr ⟨stmt, inside, among⟩⟩
  intro term member
  rcases List.mem_append.mp member with member | member
  · obtain ⟨field, inside, member⟩ := List.mem_flatMap.mp member
    obtain ⟨global, known, rfl⟩ := List.mem_map.mp inside
    refine initial_code_asks (fun value given node within => own node ?_) term member
    refine List.mem_flatMap.mpr ⟨value, List.mem_append_left _ ?_, within⟩
    exact List.mem_flatMap.mpr
      ⟨global, List.mem_of_mem_filter known, Option.mem_toList.mpr given⟩
  · obtain ⟨method, inside, member⟩ := List.mem_flatMap.mp member
    rcases mem_methods inside with ⟨decl, known, rfl⟩ | ⟨state, known, decl, handler, rfl⟩
    · exact inBody decl.ownScope (List.mem_append_left _ (List.mem_map_of_mem known)) false term
        member
    · exact inBody decl.ownScope (List.mem_append_right _ (List.mem_flatMap.mpr
        ⟨state, known, StateDecl.own_scope_mem handler⟩)) true term member

/-- An operation that a program calls is made on operands whose types decide its own. -/
theorem operation_lawful {settings : Settings} (traced : script.Traced library)
    {operation : Operation} (member : operation ∈ (script.program library settings).operations) :
    operation.operator.result? operation.left operation.right = some operation.returns := by
  obtain ⟨right, left, called⟩ := Program.mem_operations.mp member
  refine program_asks (fun code => ∀ operation right left, code = .operate operation right left →
    operation.operator.result? operation.left operation.right = some operation.returns) ?_
    _ called rfl operation right left rfl
  intro node inside
  cases node with
  | reference info name binding => cases binding <;> simp [Expr.Asks]
  | call info name inner arguments target => cases target <;> simp [Expr.Asks]
  | binary info operator first second =>
      rintro operation calls _ _ _ ⟨⟩
      obtain ⟨result, _, rfl, lawful⟩ := (traced.node inside).firm.called calls
      exact lawful
  | _ => trivial

end Script

section

variable (script : Script) (manner : Manner) (program : Program)

/-- What the term asks for is there once: a function that a call of the script stands for, a global
that a name of the script stands for, or an operation of the types of an operation of the script. -/
def Code.IsMet : Code → Prop
  | .invoke (.script name) passed =>
    ∃ decl ∈ script.functions, decl.name = name ∧
      (∃ info inner arguments,
        .call info name inner arguments (.script decl.start) ∈ script.nodes ∧
          passed = Expr.codes manner (.argument false) arguments) ∧
      program.functions.filter (·.name = "FN_" ++ name) = [decl.code manner]
  | .global name =>
    ∃ decl ∈ script.globals, decl.decl.name = name ∧
      (∃ info, .reference info name (.global decl.start) ∈ script.nodes) ∧
      program.globals.filter (·.name = name) = [decl.code manner]
  | .operate operation right left =>
    (∃ info operator first second, .binary info operator first second ∈ script.nodes ∧
      right = second.code manner .operand ∧ left = first.code manner .operand ∧
      operation.operator = operator.underlying ∧ info.type = some operation.returns ∧
      first.type? = some operation.left ∧ second.type? = some operation.right) ∧
      program.operations.filter (·.name = operation.name) = [operation]
  | _ => True

theorem Code.met_of_plain {term : Code} (plain : ¬ term.isRequest = true) :
    term.IsMet script manner program := by
  cases term with
  | global name => exact absurd rfl plain
  | operate operation right left => exact absurd rfl plain
  | invoke callee passed =>
      cases callee with
      | script name => exact absurd rfl plain
      | _ => trivial
  | _ => trivial

/-- The program has what its code asks for, and no operation that its code does not call. A global is
set after those that its first value is made of. -/
structure Program.Closed : Prop where
  met : ∀ term ∈ program.terms, term.IsMet script manner program
  ordered : ∀ front field back, program.globals = front ++ field :: back →
    ∀ name, .global name ∈ field.value.terms → ∃ earlier ∈ front, earlier.name = name
  called : ∀ operation ∈ program.operations,
    ∃ right left, .operate operation right left ∈ program.terms

end

namespace Script

variable {library : Library} {script : Script}

theorem function_unique {settings : Settings} (traced : script.Traced library)
    {decl : FunctionDecl} (member : decl ∈ script.functions)
    (used : Use.isUsed script.uses decl.start = true) :
    (script.program library settings).functions.filter (·.name = "FN_" ++ decl.name) =
      [decl.code ⟨library, settings, script.uses⟩] := by
  have kept : decl.code ⟨library, settings, script.uses⟩ ∈
      (script.program library settings).functions :=
    List.mem_map_of_mem (List.mem_filter.mpr ⟨member, used⟩)
  have names : ((script.functions.filter (Use.isUsed script.uses ·.start)).map (·.name)).Nodup :=
    traced.functions.sublist (List.filter_sublist.map _)
  refine filter_unique Method.name ?_ kept
  have distinct := names.map (f := ("FN_" ++ ·)) fun first second same =>
    (String.append_right_inj "FN_").mp same
  simpa [Script.program, FunctionDecl.code, Function.comp_def] using distinct

theorem global_unique {settings : Settings} (traced : script.Traced library)
    {decl : GlobalDecl} (member : decl ∈ script.globals)
    (used : Use.isUsed script.uses decl.start = true) :
    (script.program library settings).globals.filter (·.name = decl.decl.name) =
      [decl.code ⟨library, settings, script.uses⟩] := by
  have kept : decl.code ⟨library, settings, script.uses⟩ ∈
      (script.program library settings).globals :=
    List.mem_map_of_mem (List.mem_filter.mpr ⟨member, used⟩)
  have names : ((script.globals.filter (Use.isUsed script.uses ·.start)).map
      (·.decl.name)).Nodup :=
    traced.globals.sublist (List.filter_sublist.map _)
  refine filter_unique GlobalField.name ?_ kept
  simpa [Script.program, GlobalDecl.code, Function.comp_def] using names

theorem operation_names_nodup {settings : Settings} (traced : script.Traced library) :
    ((script.program library settings).operations.map Operation.name).Nodup := by
  refine List.Nodup.map_on ?_ (Operation.sorted_nodup _)
  intro first firstMember second secondMember same
  obtain ⟨left, operator, right⟩ := Operation.operands_of_name same
  have returns := script.operation_lawful traced firstMember
  rw [left, operator, right, script.operation_lawful traced secondMember] at returns
  change Operation.mk first.left first.operator first.right first.returns = second
  rw [left, operator, right, ← Option.some.inj returns]

theorem operation_unique {settings : Settings} (traced : script.Traced library)
    {operation : Operation} (member : operation ∈ (script.program library settings).operations) :
    (script.program library settings).operations.filter (·.name = operation.name) =
      [operation] :=
  filter_unique Operation.name (operation_names_nodup traced) member

theorem global_of_reference {view : View} {globals : List GlobalDecl} {info : ExprInfo}
    {name : String} {start : Nat} (seen : view.globals = globals.map GlobalDecl.visible)
    (traced : script.Traced library) (known : (Expr.reference info name (.global start)).Traced view)
    (member : .reference info name (.global start) ∈ script.nodes) :
    ∃ decl ∈ globals, decl.decl.name = name ∧ decl.start = start ∧
      Use.isUsed script.uses decl.start = true := by
  obtain ⟨found, inside, rfl, bound⟩ := known.rooted
  rw [seen] at inside
  obtain ⟨decl, declared, rfl⟩ := List.mem_map.mp inside
  obtain rfl : decl.start = start := Binding.global.inj bound
  exact ⟨decl, declared, rfl, rfl, traced.is_used member List.mem_cons_self⟩

theorem node_met {settings : Settings} (traced : script.Traced library) {node : Expr}
    (inside : node ∈ script.nodes) :
    node.Asks ⟨library, settings, script.uses⟩ fun term =>
      term ∈ (script.program library settings).terms →
        term.IsMet script ⟨library, settings, script.uses⟩ (script.program library settings) := by
  have known := traced.node inside
  cases node with
  | reference info name binding =>
      cases binding with
      | global start =>
          obtain ⟨decl, member, rfl, rfl, used⟩ := global_of_reference rfl traced known inside
          exact fun _ => ⟨decl, member, rfl, ⟨info, inside⟩, global_unique traced member used⟩
      | _ => trivial
  | call info name inner arguments target =>
      cases target with
      | script start =>
          obtain ⟨header, seen, rfl, rfl⟩ := known.rooted
          obtain ⟨decl, member, rfl⟩ := List.mem_map.mp seen
          have used := traced.is_used inside (List.mem_append_right _ List.mem_cons_self)
          exact fun _ => ⟨decl, member, rfl, ⟨info, inner, arguments, inside, rfl⟩,
            function_unique traced member used⟩
      | _ => trivial
  | binary info operator first second =>
      intro operation calls member
      obtain ⟨result, typed, rfl, _⟩ := known.firm.called calls
      have operand (part : Expr) (own : part ∈ [first, second]) : part.type? = some part.type := by
        have typed := (traced.node (part_mem_nodes inside own)).firm.typed
        obtain ⟨type, typed⟩ := Option.isSome_iff_exists.mp typed
        rw [typed, Expr.type_of_known typed]
      exact ⟨⟨info, operator, first, second, inside, rfl, rfl, rfl, typed,
        operand first (by simp), operand second (by simp)⟩,
        operation_unique traced (Program.mem_operations.mpr ⟨_, _, member⟩)⟩
  | _ => trivial

theorem globals_ordered {settings : Settings} (traced : script.Traced library)
    {front back : List GlobalField} {field : GlobalField}
    (split : (script.program library settings).globals = front ++ field :: back) {name : String}
    (named : .global name ∈ field.value.terms) : ∃ earlier ∈ front, earlier.name = name := by
  obtain ⟨kept, others, keeps, rfl, tail⟩ := List.map_eq_append_iff.mp split
  obtain ⟨global, later, rfl, rfl, rfl⟩ := List.map_eq_cons_iff.mp tail
  obtain ⟨before, rest, divided, rfl, keptRest⟩ := List.filter_eq_append_iff.mp keeps
  obtain ⟨skipped, behind, rfl, unused, _, _⟩ := List.filter_eq_cons_iff.mp keptRest
  rw [← List.append_assoc] at divided
  have holds := traced.holds.globals _ _ _ divided
  have member : global ∈ script.globals := by simp [divided]
  have asks : (initialCode ⟨library, settings, script.uses⟩ global.decl).Asks
      fun code => ∀ name, code = .global name →
        ∃ earlier ∈ (before.filter (Use.isUsed script.uses ·.start)).map
          (GlobalDecl.code ⟨library, settings, script.uses⟩), earlier.name = name := by
    refine initial_code_asks ?_
    intro value given node within
    have early := holds.value value given node within
    have inside : node ∈ script.nodes := List.mem_flatMap.mpr ⟨value, List.mem_append_left _
      (List.mem_flatMap.mpr ⟨global, member, Option.mem_toList.mpr given⟩), within⟩
    cases node with
    | reference info name binding =>
        cases binding with
        | global start =>
            intro name same
            cases same
            obtain ⟨decl, among, rfl, rfl, used⟩ := global_of_reference rfl traced early inside
            rcases List.mem_append.mp among with among | among
            · exact ⟨_, List.mem_map_of_mem (List.mem_filter.mpr ⟨among, used⟩), rfl⟩
            · exact absurd used (unused decl among)
        | _ => trivial
    | call info name inner arguments target =>
        cases target with
        | script start =>
            intro name same
            cases same
        | _ => trivial
    | binary info operator left right =>
        intro _ _ name same
        cases same
    | _ => trivial
  exact asks _ named rfl name rfl

end Script

/-- The program of an accepted source is closed, and with valid settings it is written: what a call
of a function of the script, the name of a global and the call of an operation stand for is there
once, with the types of the operands and of the operation, whatever part of the script refers to it.
No operation is there that is not called. -/
theorem accepted_program_closed {library : Library} {settings : Settings} {source : String}
    (valid : settings.validate = .ok ()) (accepted : Accepted library source) (date : String) :
    let script := (checkSource library source).value
    let program := script.program library settings
    compile library settings date script = .ofFragments (program.fragments settings date) ∧
      program.Closed script ⟨library, settings, script.uses⟩ ∧
      program.WrittenIn settings (program.fragments settings date) := by
  intro script program
  have traced : script.Traced library := accepted.traced
  refine ⟨?_, ⟨?_, ?_, fun operation => Program.mem_operations.mp⟩, program.written settings date⟩
  · have granted : checkRequest settings script.hasErrors = .ok () := by
      simp [checkRequest, traced.holds.whole, valid]
    simp only [compile, granted]
    rfl
  · intro term member
    by_cases request : term.isRequest = true
    · exact Script.program_asks _ (fun _ inside => script.node_met traced inside) term member
        request member
    · exact Code.met_of_plain script _ program request
  · exact fun front field back split name => Script.globals_ordered traced split

/-- A function that nothing calls and a global that nothing reads are left out. -/
theorem small_program_closed :
    let source := "integer a = 2; integer b = a; integer unread; idle() \x7b \x7d " ++
      "integer twice(integer n) \x7b n += b; return n * a; \x7d " ++
      "default \x7b state_entry() \x7b twice(1); \x7d \x7d"
    let script := (checkSource .small source).value
    let program := script.program .small {}
    Settings.validate {} = .ok () ∧ Accepted .small source ∧
      program.functions.map (·.name) = ["FN_twice"] ∧
      program.globals.map (·.name) = ["a", "b"] ∧
      program.operations.map (·.name) = ["_o101", "_o141"] ∧
      program.Closed script ⟨.small, {}, script.uses⟩ ∧
      program.WrittenIn {} (program.fragments {} "") := by
  intro source script program
  have valid : Settings.validate {} = .ok () := by decide +kernel
  have spelled : source = String.ofList _ :=
    (congrArg (· ++ _) String.ofList_append.symm).trans String.ofList_append.symm
  have facts : Accepted .small source ∧ program.functions.map (·.name) = ["FN_twice"] ∧
      program.globals.map (·.name) = ["a", "b"] ∧
      program.operations.map (·.name) = ["_o101", "_o141"] := by
    simp only [Accepted, program, script, check_source_spelled spelled]
    decide +kernel
  obtain ⟨accepted, functions, globals, operations⟩ := facts
  obtain ⟨_, closed, written⟩ := accepted_program_closed valid accepted ""
  exact ⟨valid, accepted, functions, globals, operations, closed, written⟩

end Lsl
