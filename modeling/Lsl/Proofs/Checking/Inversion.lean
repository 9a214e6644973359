import Lsl.Proofs.Checking.Run
import Lsl.Proofs.Parsing.Fidelity
import Lsl.Proofs.Parsing.Finding

/-!
Uses and bindings are inverse to each other. The validator records a use when it binds a name, and in
a checked script the uses of a declaration are the names that are bound to it, each once. That holds
whatever is wrong with the script, as long as its text is read without an error. A local variable is
reported as unused exactly if it is declared and has no use in the end: what is outside of its scope
cannot refer to it.
-/

set_option autoImplicit false

namespace Lsl

theorem parse_silent {source : String} (clean : syntaxErrors source = []) :
    (parse (tokenize source)).2 = [] := by
  have all := congrArg List.length clean
  simp only [syntaxErrors, List.length_mergeSort, List.length_append, List.length_nil,
    Nat.add_eq_zero_iff, List.length_eq_zero_iff] at all
  exact all.2

theorem Stmt.uses_of_unbound {body : List Stmt}
    (unbound : ∀ mention ∈ listMentions body, mention.referent = none) : listUses body = [] := by
  have none : (listMentions body).filterMap Mention.use? = [] := by
    refine List.filterMap_eq_nil_iff.mpr fun mention member => ?_
    rw [Mention.use?, unbound mention member]
    rfl
  exact (none ▸ list_uses_perm body).eq_nil

theorem Script.uses_of_unbound {script : Script}
    (unbound : ∀ mention ∈ script.mentions, mention.referent = none) {body : CodeScope}
    (member : body ∈ script.bodies) : Stmt.listUses body.body = [] := by
  rw [script.bodies_eq] at member
  obtain ⟨routine, inside, rfl⟩ := List.mem_map.mp member
  exact Stmt.uses_of_unbound fun mention mentioned =>
    unbound mention (Script.mention_of_routine inside mentioned)

theorem Script.Bound.foreseen {library : Library} {script : Script}
    (bound : (checkDeclarations library script).value.Bound)
    (clean : ∀ body ∈ script.bodies, Stmt.listHasErrors body.body = false) {inspection : Inspection}
    (member : inspection ∈ script.inspections library) :
    inspection.Foreseen (checkDeclarations library script).value.boundUses := by
  have looked : inspection.body ∈ (checkDeclarations library script).value.examined := by
    rw [script.examined_inspections]
    exact List.mem_map_of_mem member
  have own : inspection.body ∈ (checkDeclarations library script).value.bodies :=
    (Script.examined_sublist _).subset looked
  rw [← bound.recorded]
  refine ⟨clean _ (Script.inspections_read member).2, ⟨?_, ?_⟩, ?_⟩
  · rw [bound.recorded]
    exact Script.uses_of_body own
  · intro scope inside found declared used
    obtain ⟨stmt, stands, same⟩ := List.mem_filterMap.mp declared
    rwa [bound.used_in_scope looked inside stands (Stmt.declaration_of_declared same)]
  · intro referent declares used
    obtain ⟨routine, inside, same⟩ := Script.routine_of_examined looked
    rw [← same] at declares ⊢
    rwa [bound.used_in_body inside (List.mem_append_right _ declares)]

/-- Nothing outside of a body knows what is in it, as long as the text is read without an error. -/
theorem source_foreseen (library : Library) {source : String} (clean : syntaxErrors source = []) :
    (parse (tokenize source)).1.Foreseen library := by
  obtain ⟨declared, mentioned, unbound⟩ := parse_finds source
  have bound := check_declarations_bound library declared mentioned unbound
    fun body inside => (parse_bodies inside).1.starts.imp Nat.ne_of_lt
  have sound := parse_sound (parse_silent clean)
  constructor
  case unbound =>
    exact fun decl listed handler own => Script.uses_of_unbound unbound
      (Script.listed_bodies listed (StateDecl.own_scope_mem own))
  case inspections =>
    exact fun inspection member =>
      bound.foreseen (fun body inside => (sound.bodies body inside).clean) member

/-- With nothing wrong in its text, a source is judged by its declarations, and what is recorded as
used is what is bound. -/
theorem check_source_eq {library : Library} {source : String} (clean : syntaxErrors source = []) :
    checkSource library source =
      ⟨(checkDeclarations library (parse (tokenize source)).1).value.concluded
          (checkDeclarations library (parse (tokenize source)).1).reports,
        (checkDeclarations library (parse (tokenize source)).1).reports⟩ := by
  rw [checkSource, clean, ← (source_foreseen library clean).validate_eq]
  rfl

theorem check_source_faulty (library : Library) {source : String} (faulty : syntaxErrors source ≠ []) :
    (checkSource library source).reports = (syntaxErrors source).map Diagnostic.ofSyntaxError := by
  simp only [checkSource, List.isEmpty_iff, faulty, if_false]

/-- In a source whose text is read without an error, whatever else is wrong with it, all that is
bound is bound to a declaration; the uses of a declaration are the places of the names that are bound
to it, each once; and the local variables reported as unused are those declared that have no use. -/
theorem uses_invert_bindings (library : Library) {source : String}
    (clean : syntaxErrors source = []) :
    let checked := checkSource library source
    let script := checked.value
    (∀ mention ∈ script.mentions, ∀ referent ∈ mention.referent, referent ∈ script.referents) ∧
    (script.mentions.map (·.place)).Nodup ∧
    (∀ referent ∈ script.referents,
      (Use.placesOf script.uses referent.start).Nodup ∧
      (Use.placesOf script.uses referent.start).Perm
        ((script.mentions.filter (·.referent = some referent)).map (·.place))) ∧
    checked.unused.Perm (script.declaredLocals.filter fun (_, span) =>
      Use.placesOf script.uses span.start.offset = []) := by
  obtain ⟨declared, mentioned, unbound⟩ := parse_finds source
  have bound := check_declarations_bound library declared mentioned unbound
    fun body inside => (parse_bodies inside).1.starts.imp Nat.ne_of_lt
  have told := unused_check_declarations library (parse (tokenize source)).1
  rw [check_source_eq clean]
  generalize checkDeclarations library (parse (tokenize source)).1 = result at bound told ⊢
  have final := bound.concluded result.reports
  exact ⟨final.closed, final.mentioned, fun referent member => final.places member,
    told.trans final.unused⟩

/-- A variable that is refused and one of a second handler of an event are not reported as unused. -/
theorem refused_declarations_used :
    let source := "integer g; f(integer p) \x7b g = p; \x7d default \x7b state_entry() \x7b " ++
      "integer a; float a; integer b = a; @l; jump l; state default; f(a); \x7d " ++
      "state_entry() \x7b integer c; \x7d \x7d"
    let checked := checkSource .minimal source
    let script := checked.value
    syntaxErrors source = [] ∧
    script.referents.map (fun referent =>
      (referent.kind, referent.start, Use.placesOf script.uses referent.start)) =
      [(.global, 0, [26]), (.function, 11, [123]), (.state, 35, [108]), (.parameter, 13, [30]),
        (.inScope, 61, [93, 125]), (.inScope, 72, []), (.inScope, 81, []), (.label, 96, [100]),
        (.inScope, 147, [])] ∧
    checked.unused.map (·.1) = ["b"] ∧
    checked.unused.Perm (script.declaredLocals.filter fun (_, span) =>
      Use.placesOf script.uses span.start.offset = []) := by
  intro source checked script
  have spelled : source = String.ofList _ :=
    (congrArg (· ++ _) String.ofList_append.symm).trans String.ofList_append.symm
  have facts : syntaxErrors source = [] ∧
      script.referents.map (fun referent =>
        (referent.kind, referent.start, Use.placesOf script.uses referent.start)) =
        [(.global, 0, [26]), (.function, 11, [123]), (.state, 35, [108]), (.parameter, 13, [30]),
          (.inScope, 61, [93, 125]), (.inScope, 72, []), (.inScope, 81, []), (.label, 96, [100]),
          (.inScope, 147, [])] ∧
      checked.unused.map (·.1) = ["b"] := by
    simp only [script, checked, syntax_errors_spelled spelled, check_source_spelled spelled]
    decide +kernel
  exact ⟨facts.1, facts.2.1, facts.2.2, (uses_invert_bindings .minimal facts.1).2.2.2⟩

end Lsl
