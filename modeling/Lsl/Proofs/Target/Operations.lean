import Lsl.Proofs.Target.Terms
import Mathlib.Data.List.Nodup

/-!
The operations of a program, and its text. The operations are those that its code calls, each once,
and where the operands decide what an operation gives back, no two of them go by one name. The
functions, the lines that declare globals, those of the constructor that sets them and the methods of operations
are written one behind the other, and so is every term of the code.
-/

set_option autoImplicit false

namespace Lsl

/-- The text of a code, which is part of names. -/
def ValueType.digits (type : ValueType) : List Char := (toString type.code).toList

def BinaryOperator.digits (operator : BinaryOperator) : List Char := (toString operator.code).toList

theorem ValueType.digits_injective {first second : ValueType}
    (same : first.digits = second.digits) : first = second := by
  have read (type : ValueType) : [void, integer, float, string, key, vector, rotation,
      list].find? (·.digits == type.digits) = some type := by
    cases type <;> decide
  have equal := read first
  rw [same, read second] at equal
  exact (Option.some.inj equal).symm

theorem BinaryOperator.digits_injective {first second : BinaryOperator}
    (same : first.digits = second.digits) : first = second := by
  have read (operator : BinaryOperator) :
      all.find? (·.digits == operator.digits) = some operator := by
    cases operator <;> decide
  have equal := read first
  rw [same, read second] at equal
  exact (Option.some.inj equal).symm

theorem ValueType.digits_length (type : ValueType) : type.digits.length = 1 := by
  cases type <;> rfl

namespace Operation

/-- The codes of types have one digit each, so that the name tells them from that of the operator. -/
theorem operands_of_name {first second : Operation} (same : first.name = second.name) :
    first.left = second.left ∧ first.operator = second.operator ∧ first.right = second.right := by
  have text := congrArg String.toList same
  simp only [name, String.toList_append] at text
  change _ ++ first.left.digits ++ first.operator.digits ++ first.right.digits =
    _ ++ second.left.digits ++ second.operator.digits ++ second.right.digits at text
  obtain ⟨front, right⟩ := List.append_inj' text
    (by rw [ValueType.digits_length, ValueType.digits_length])
  rw [List.append_assoc, List.append_assoc] at front
  obtain ⟨left, operator⟩ := List.append_inj (List.append_cancel_left front)
    (by rw [ValueType.digits_length, ValueType.digits_length])
  exact ⟨ValueType.digits_injective left, BinaryOperator.digits_injective operator,
    ValueType.digits_injective right⟩

theorem rank_injective {first second : Operation} (same : first.rank = second.rank) :
    first = second := by
  have small (type : ValueType) : type.code < 8 := by cases type <;> decide
  have bounded (operator : BinaryOperator) : operator.code < 24 := by cases operator <;> decide
  have leftSmall := small first.left
  have rightSmall := small first.right
  have returnsSmall := small first.returns
  have otherLeft := small second.left
  have otherRight := small second.right
  have otherReturns := small second.returns
  have operatorBound := bounded first.operator
  have otherOperator := bounded second.operator
  have type {first second : ValueType} (same : first.code = second.code) : first = second :=
    ValueType.digits_injective (congrArg (fun code => (toString code).toList) same)
  unfold rank at same
  have left := type (show first.left.code = second.left.code by omega)
  have right := type (show first.right.code = second.right.code by omega)
  have returns := type (show first.returns.code = second.returns.code by omega)
  have codes : first.operator.code = second.operator.code := by omega
  have operator := BinaryOperator.digits_injective
    (congrArg (fun code => (toString code).toList) codes)
  change mk first.left first.operator first.right first.returns = second
  rw [left, operator, right, returns]

theorem mem_insert {found operation : Operation} {list : List Operation} :
    found ∈ insert operation list ↔ found = operation ∨ found ∈ list := by
  induction list with
  | nil => simp [insert]
  | cons other rest induction =>
      rw [insert]
      split
      · exact List.mem_cons
      · split
        · rename_i same
          rw [rank_injective same, List.mem_cons, or_self_left]
        · rw [List.mem_cons, List.mem_cons, induction, or_left_comm]

theorem mem_sorted {found : Operation} {list : List Operation} :
    found ∈ sorted list ↔ found ∈ list := by
  induction list with
  | nil => rfl
  | cons operation rest induction =>
      rw [sorted, List.foldr_cons, mem_insert, List.mem_cons]
      exact or_congr_right induction

theorem insert_rising {operation : Operation} {list : List Operation}
    (rising : list.Pairwise (rank · < rank ·)) :
    (insert operation list).Pairwise (rank · < rank ·) := by
  induction list with
  | nil => exact List.pairwise_singleton _ _
  | cons other rest induction =>
      obtain ⟨lower, others⟩ := List.pairwise_cons.mp rising
      rw [insert]
      split
      · rename_i less
        refine List.pairwise_cons.mpr ⟨?_, rising⟩
        intro found member
        rcases List.mem_cons.mp member with rfl | member
        · exact less
        · exact less.trans (lower found member)
      · split
        · exact rising
        · refine List.pairwise_cons.mpr ⟨?_, induction others⟩
          intro found member
          rcases mem_insert.mp member with rfl | member
          · omega
          · exact lower found member

theorem sorted_rising (list : List Operation) : (sorted list).Pairwise (rank · < rank ·) := by
  induction list with
  | nil => exact .nil
  | cons operation rest induction => exact insert_rising induction

theorem nodup_of_rising {list : List Operation} (rising : list.Pairwise (rank · < rank ·)) :
    list.Nodup :=
  rising.imp fun less same => absurd (same ▸ less) (lt_irrefl _)

theorem sorted_nodup (list : List Operation) : (sorted list).Nodup :=
  nodup_of_rising (sorted_rising list)

theorem eq_of_rising {first second : List Operation} (rising : first.Pairwise (rank · < rank ·))
    (other : second.Pairwise (rank · < rank ·))
    (same : ∀ operation, operation ∈ first ↔ operation ∈ second) : first = second := by
  have alike : first.Perm second :=
    (List.perm_ext_iff_of_nodup (nodup_of_rising rising) (nodup_of_rising other)).mpr same
  exact alike.eq_of_pairwise (fun _ _ _ _ less more => absurd less (lt_asymm more)) rising other

/-- Operations may be taken up one by one, in the order in which they are met. -/
theorem sorted_eq_foldl (list : List Operation) :
    sorted list = list.foldl (fun found operation => insert operation found) [] := by
  rw [← List.foldr_reverse]
  refine eq_of_rising (sorted_rising list) (sorted_rising list.reverse) fun operation => ?_
  exact mem_sorted.trans (List.mem_reverse.symm.trans mem_sorted.symm)

end Operation

/-- The operation that a term calls. -/
def Code.operation? : Code → Option Operation
  | .operate operation _ _ => some operation
  | _ => none

namespace Code

theorem list_operations_eq (codes : List Code) :
    listOperations codes = codes.flatMap operations := by
  induction codes with
  | nil => rfl
  | cons code rest induction => rw [listOperations, induction, List.flatMap_cons]

theorem operations_of_parts (code : Code) :
    code.operations = code.operation?.toList ++ code.parts.flatMap operations := by
  cases code <;> simp [operations, operation?, parts, list_operations_eq]

theorem operations_eq (code : Code) : code.operations = code.terms.filterMap operation? := by
  induction code using parts_induction with
  | step code induction =>
      rw [operations_of_parts, terms_eq, List.filterMap_cons, List.filterMap_flatMap,
        List.flatMap_congr induction]
      cases code.operation? <;> rfl

theorem list_operations_terms (codes : List Code) :
    listOperations codes = (listTerms codes).filterMap operation? := by
  rw [list_operations_eq, list_terms_eq, List.filterMap_flatMap]
  exact List.flatMap_congr fun code _ => code.operations_eq

theorem option_operations_terms (code : Option Code) :
    optionOperations code = (optionTerms code).filterMap operation? := by
  cases code with
  | none => rfl
  | some code => exact code.operations_eq

end Code

mutual

theorem CodeStmt.operations_eq (stmt : CodeStmt) :
    stmt.operations = stmt.terms.filterMap Code.operation? := by
  match stmt with
  | .declare _ _ value | .perform value => exact value.operations_eq
  | .giveBack value => exact Code.option_operations_terms value
  | .jump _ | .label _ _ | .changeState _ | .checkpoint _ | .fault _ => rfl
  | .block body => exact CodeStmt.list_operations_eq body
  | .branch condition body rest =>
      rw [CodeStmt.operations, CodeStmt.terms, List.filterMap_append, List.filterMap_append,
        condition.operations_eq, CodeStmt.list_operations_eq body, rest.operations_eq]
  | .whileLoop condition body =>
      rw [CodeStmt.operations, CodeStmt.terms, List.filterMap_append, condition.operations_eq,
        CodeStmt.list_operations_eq body]
  | .doLoop body condition =>
      rw [CodeStmt.operations, CodeStmt.terms, List.filterMap_append, condition.operations_eq,
        CodeStmt.list_operations_eq body]
  | .forLoop init condition afterthought body =>
      simp only [CodeStmt.operations, CodeStmt.terms, List.filterMap_append,
        Code.list_operations_terms, Code.option_operations_terms, CodeStmt.list_operations_eq body]

theorem CodeStmt.list_operations_eq (codes : List CodeStmt) :
    CodeStmt.listOperations codes = (CodeStmt.listTerms codes).filterMap Code.operation? := by
  match codes with
  | [] => rfl
  | stmt :: rest =>
      rw [CodeStmt.listOperations, CodeStmt.listTerms, List.filterMap_append, stmt.operations_eq,
        CodeStmt.list_operations_eq rest]

theorem CodeAlternatives.operations_eq (rest : CodeAlternatives) :
    rest.operations = rest.terms.filterMap Code.operation? := by
  match rest with
  | .done => rfl
  | .elseIf condition body rest =>
      rw [CodeAlternatives.operations, CodeAlternatives.terms, List.filterMap_append,
        List.filterMap_append, condition.operations_eq, CodeStmt.list_operations_eq body,
        rest.operations_eq]
  | .otherwise body => exact CodeStmt.list_operations_eq body

end

namespace Program

/-- The terms of the code of a program, in its globals and in its methods. -/
def terms (program : Program) : List Code :=
  program.globals.flatMap (·.value.terms) ++
    program.methods.flatMap fun method => CodeStmt.listTerms method.body

def noted (found : List Operation) (term : Code) : List Operation :=
  match term.operation? with
  | some operation => operation.insert found
  | none => found

theorem called_operations (program : Program) :
    program.globals.flatMap (·.value.operations) ++
      program.methods.flatMap (fun method => CodeStmt.listOperations method.body) =
        program.terms.filterMap Code.operation? := by
  simp only [terms, List.filterMap_append, List.filterMap_flatMap, Code.operations_eq,
    CodeStmt.list_operations_eq]

/-- The operations of a program are those taken up while its terms are written, each one where its
name is. -/
theorem operations_noted (program : Program) : program.operations = program.terms.foldl noted [] := by
  rw [operations, called_operations, Operation.sorted_eq_foldl, List.foldl_filterMap]
  refine congrArg (fun step => program.terms.foldl step []) ?_
  funext found term
  unfold noted
  cases term.operation? <;> rfl

theorem mem_operations {program : Program} {operation : Operation} :
    operation ∈ program.operations ↔
      ∃ right left, .operate operation right left ∈ program.terms := by
  rw [operations, Operation.mem_sorted, called_operations, List.mem_filterMap]
  constructor
  · rintro ⟨term, member, known⟩
    cases term with
    | operate found right left =>
        cases known
        exact ⟨right, left, member⟩
    | _ => cases known
  · rintro ⟨right, left, member⟩
    exact ⟨_, member, rfl⟩

end Program

open Fragment (line gap banner braced)

namespace Settings

variable (settings : Settings)

/-- How the first values of globals reach other globals. -/
def valueAccess : GlobalAccess := if settings.wrapsInClass then .field else .inside

/-- The declarations of globals, in the class or in the object that holds them. -/
def declarations (globals : List GlobalField) : List Fragment :=
  globals.flatMap (if settings.wrapsInClass then GlobalField.declaration "GV_" settings.depth
    else GlobalField.declaration "V_" (settings.depth + 1))

/-- The constructor that sets globals, of the class or of the object that holds them. -/
def constructor (globals : List GlobalField) : List Fragment :=
  if settings.wrapsInClass then
    line settings.depth (settings.constructorAccess.modifier ++ settings.className ++
        settings.constructorSignature) ++
      braced settings.depth
        (globals.flatMap (GlobalField.assignment settings.valueAccess "GV_" (settings.depth + 1)))
  else
    line (settings.depth + 1) "public GLOBALS()" ++
      braced (settings.depth + 1) (globals.flatMap
        (GlobalField.assignment settings.valueAccess "this.V_" (settings.depth + 2)))

end Settings

/-- The definitions of a program and all terms of its code stand in a text. -/
structure Program.WrittenIn (program : Program) (settings : Settings) (text : List Fragment) :
    Prop where
  functions : (program.functions.flatMap fun method =>
    method.fragments settings.access settings.depth ++ [gap 2]) <:+: text
  declarations : settings.declarations program.globals <:+: text
  constructor : program.globals ≠ [] → settings.constructor program.globals <:+: text
  operations : separated [gap 2] (program.operations.map
    (Operation.fragments settings.keysAreStrings settings.depth)) <:+: text
  values : ∀ global ∈ program.globals, ∀ term ∈ global.value.terms,
    term.fragments settings.valueAccess <:+: text
  terms : ∀ method ∈ program.methods, ∀ term ∈ CodeStmt.listTerms method.body,
    term.fragments settings.access <:+: text

theorem GlobalField.value_within (access : GlobalAccess) (marker : String) (depth : Nat)
    (global : GlobalField) :
    global.value.fragments access <:+: global.assignment access marker depth :=
  infix_left _ (infix_right [_, _] List.infix_rfl)

namespace Program

variable (program : Program) (settings : Settings)

theorem globals_within (date : String) {inner : List Fragment}
    (inside : inner <:+: program.globalFragments settings) :
    inner <:+: program.fragments settings date := by
  rw [fragments]
  exact infix_left _ (infix_left _ (infix_left _ (infix_left _ (infix_right _ inside))))

theorem functions_written :
    (program.functions.flatMap fun method =>
      method.fragments settings.access settings.depth ++ [gap 2]) <:+:
        program.functionFragments settings := by
  unfold functionFragments
  split
  · rename_i none
    rw [List.isEmpty_iff.mp none]
    exact List.nil_infix
  · exact infix_right _ List.infix_rfl

theorem operations_written :
    separated [gap 2] (program.operations.map
      (Operation.fragments settings.keysAreStrings settings.depth)) <:+:
        program.operationFragments settings := by
  unfold operationFragments
  dsimp only
  split
  · rename_i none
    rw [List.isEmpty_iff.mp none]
    exact List.nil_infix
  · exact infix_right _ List.infix_rfl

theorem declarations_written :
    settings.declarations program.globals <:+: program.globalFragments settings := by
  unfold Settings.declarations globalFragments
  split
  · exact infix_left _ (infix_left _ (infix_left _ (infix_left _ List.infix_rfl)))
  · unfold containerFragments
    split
    · rename_i none
      rw [List.isEmpty_iff.mp none]
      exact List.nil_infix
    · exact infix_left _ (infix_left _ (infix_left _ (infix_right _
        ((infix_left _ (infix_left _ List.infix_rfl)).trans (Fragment.braced_within _ _)))))

theorem constructor_written (some : program.globals ≠ []) :
    settings.constructor program.globals <:+: program.globalFragments settings := by
  unfold Settings.constructor globalFragments Settings.valueAccess
  split
  · unfold fieldFragments
    refine infix_left _ ?_
    rw [List.append_assoc]
    exact infix_right _ List.infix_rfl
  · unfold containerFragments
    rw [if_neg (by simpa using some)]
    refine infix_left _ (infix_left _ (infix_left _ (infix_right _
      (List.IsInfix.trans ?_ (Fragment.braced_within _ _)))))
    rw [List.append_assoc (List.flatMap _ _)]
    exact infix_right _ List.infix_rfl

theorem written (date : String) :
    program.WrittenIn settings (program.fragments settings date) where
  functions := by
    rw [fragments]
    exact infix_left _ (infix_left _ (infix_left _
      (infix_right _ (program.functions_written settings))))
  declarations := program.globals_within settings date (program.declarations_written settings)
  constructor some :=
    program.globals_within settings date (program.constructor_written settings some)
  operations := by
    rw [fragments]
    exact infix_left _ (infix_right _ (program.operations_written settings))
  values := by
    intro global member term inside
    have set := program.constructor_written settings (List.ne_nil_of_mem member)
    refine program.globals_within settings date (List.IsInfix.trans ?_ set)
    refine (Code.term_within settings.valueAccess inside).trans ?_
    unfold Settings.constructor
    split
    · exact infix_right _ (((global.value_within _ _ _).trans
        (flat_map_within _ member)).trans (Fragment.braced_within _ _))
    · exact infix_right _ (((global.value_within _ _ _).trans
        (flat_map_within _ member)).trans (Fragment.braced_within _ _))
  terms := by
    intro method member term inside
    exact (CodeStmt.list_term_within settings.access (settings.depth + 1) method.body inside).trans
      (body_within settings member date)

end Program

end Lsl
