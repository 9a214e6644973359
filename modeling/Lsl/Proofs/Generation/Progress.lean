import Lsl.Compilation
import Lsl.Proofs.Checking.Acceptance
import Lsl.Proofs.Checking.Spelling
import Lsl.Proofs.Target.Terms

/-!
Accepted scripts always generate: with nothing wrong in a script, no fault stands anywhere in its
code, so the code is written to its end.
-/

set_option autoImplicit false

namespace Lsl

namespace Fragment

@[simp] theorem failure_text (content : String) (rest : List Fragment) :
    failure? (.text content :: rest) = failure? rest := rfl

@[simp] theorem failure_append {first second : List Fragment} :
    failure? (first ++ second) = none ↔ failure? first = none ∧ failure? second = none := by
  induction first with
  | nil => simp [failure?]
  | cons fragment first induction =>
      cases fragment with
      | text content => simpa using induction
      | fault reason => simp [failure?]

@[simp] theorem failure_nil : failure? [] = none := rfl

@[simp] theorem failure_flat_map {α : Type} {list : List α} {write : α → List Fragment} :
    failure? (list.flatMap write) = none ↔ ∀ value ∈ list, failure? (write value) = none := by
  induction list with
  | nil => simp
  | cons value list induction => simp [induction]

@[simp] theorem failure_indent (depth : Nat) (rest : List Fragment) :
    failure? (indent depth :: rest) = failure? rest := rfl

@[simp] theorem failure_gap (count : Nat) (rest : List Fragment) :
    failure? (gap count :: rest) = failure? rest := rfl

@[simp] theorem failure_line (depth : Nat) (content : String) :
    failure? (line depth content) = none := rfl

@[simp] theorem failure_braced {depth : Nat} {inner : List Fragment} :
    failure? (braced depth inner) = none ↔ failure? inner = none := by
  simp [braced]

@[simp] theorem failure_banner (depth : Nat) (title : String) :
    failure? (banner depth title) = none := by
  simp [banner]

@[simp] theorem failure_outlined (depth : Nat) (content : String) :
    failure? (outlined depth content) = none := by
  unfold outlined
  split <;> simp

theorem failure_separated {separator : List Fragment} {items : List (List Fragment)}
    (fine : failure? separator = none) :
    failure? (separated separator items) = none ↔ ∀ item ∈ items, failure? item = none := by
  induction items with
  | nil => simp [separated]
  | cons item items induction =>
      simp only [separated, failure_append, induction, List.forall_mem_cons, and_assoc]
      refine and_congr_right fun _ => and_iff_right ?_
      split
      · rfl
      · exact fine

end Fragment

/-- The code is written to its end. -/
def Code.IsWhole (access : GlobalAccess) (code : Code) : Prop :=
  Fragment.failure? (code.fragments access) = none

section

variable {access : GlobalAccess}

theorem Code.joined_whole {separator : String} {codes : List Code} :
    Fragment.failure? (Code.joined access separator codes) = none ↔
      ∀ code ∈ codes, code.IsWhole access := by
  induction codes with
  | nil => simp [Code.joined]
  | cons code codes induction =>
      simp only [Code.joined, Fragment.failure_append, induction, List.forall_mem_cons, and_assoc]
      refine and_congr_right fun _ => and_iff_right ?_
      split <;> rfl

namespace Code

@[simp] theorem whole_plain (text : String) : (plain text).IsWhole access := rfl

@[simp] theorem whole_global (name : String) : (global name).IsWhole access := rfl

@[simp] theorem whole_create {type separator : String} {arguments : List Code} :
    (create type separator arguments).IsWhole access ↔
      ∀ argument ∈ arguments, argument.IsWhole access := by
  simp [IsWhole, fragments, joined_whole]

@[simp] theorem whole_invoke {callee : Callee} {arguments : List Code} :
    (invoke callee arguments).IsWhole access ↔
      ∀ argument ∈ arguments, argument.IsWhole access := by
  simp [IsWhole, fragments, joined_whole]

@[simp] theorem whole_operate {operation : Operation} {right left : Code} :
    (operate operation right left).IsWhole access ↔
      right.IsWhole access ∧ left.IsWhole access := by
  simp [IsWhole, fragments]

@[simp] theorem whole_logical {symbol : String} {right left : Code} :
    (logical symbol right left).IsWhole access ↔ right.IsWhole access ∧ left.IsWhole access := by
  simp [IsWhole, fragments]

@[simp] theorem whole_assign {target value : Code} :
    (assign target value).IsWhole access ↔ target.IsWhole access ∧ value.IsWhole access := by
  simp [IsWhole, fragments]

@[simp] theorem whole_rounded_product {target factor : Code} :
    (roundedProduct target factor).IsWhole access ↔
      target.IsWhole access ∧ factor.IsWhole access := by
  simp [IsWhole, fragments]

@[simp] theorem whole_before {symbol : String} {operand : Code} :
    (before symbol operand).IsWhole access ↔ operand.IsWhole access := by
  simp [IsWhole, fragments]

@[simp] theorem whole_behind {operand : Code} {symbol : String} :
    (behind operand symbol).IsWhole access ↔ operand.IsWhole access := by
  simp [IsWhole, fragments]

@[simp] theorem whole_convert {type : String} {operand : Code} :
    (convert type operand).IsWhole access ↔ operand.IsWhole access := by
  simp [IsWhole, fragments]

@[simp] theorem whole_grouped {inner : Code} :
    (grouped inner).IsWhole access ↔ inner.IsWhole access := by
  simp [IsWhole, fragments]

@[simp] theorem whole_component {target : Code} {name : String} :
    (component target name).IsWhole access ↔ target.IsWhole access := by
  simp [IsWhole, fragments]

@[simp] theorem whole_literal (place : Place) (kind : LiteralKind) (text : String) :
    (literalCode place kind text).IsWhole access := by
  unfold literalCode
  split <;> simp

end Code

/-- The lists that are written out in place of constants can be read. -/
def Library.Readable (library : Library) (settings : Settings) : Prop :=
  ∀ constant ∈ library.constants, constant.metadata.isExpanded = true →
    constant.signature.type = .list →
      ∃ text, listText (settings.keysAreStrings || settings.expandedElementsAreStrings)
        constant.literal = .ok text

theorem constant_code_whole {library : Library} {settings : Settings}
    (wellFormed : library.WellFormed) (readable : library.Readable settings)
    {constant : LibraryConstant} (member : constant ∈ library.constants) :
    (constantCode settings constant).IsWhole access := by
  unfold constantCode
  split
  · rename_i expanded
    have typed := (ConstantSignature.of_value_ok (wellFormed.constants constant member)).1
    have written : ∃ text, expandedText settings constant = .ok text := by
      unfold expandedText
      dsimp only
      split
      · exact ⟨_, rfl⟩
      · exact ⟨_, rfl⟩
      · rename_i list
        exact readable constant member expanded list
      · contradiction
      · exact ⟨_, rfl⟩
    obtain ⟨text, written⟩ := written
    simp [written]
  · simp

section

variable {manner : Manner} (wellFormed : manner.library.WellFormed)
  (readable : manner.library.Readable manner.settings)

section

variable {around : Surroundings}

include wellFormed readable in
theorem reference_code_whole {name : String} {binding : Binding}
    (known : binding.IsKnown manner.library around name) :
    (referenceCode manner name binding).IsWhole access := by
  cases binding with
  | unresolved => cases known
  | constant =>
      obtain ⟨constant, found⟩ := Option.isSome_iff_exists.mp known
      simp only [referenceCode, found]
      exact constant_code_whole wellFormed readable (List.mem_of_find?_eq_some found)
  | _ => simp [referenceCode]

/-- A call of something that can be called is written as a call. -/
theorem call_code_known {target : CallTarget} (known : target.IsKnown manner.library around)
    (name : String) (arguments : List Code) :
    ∃ callee, callee.isUtility = false ∧
      callCode manner name target arguments = .invoke callee arguments := by
  cases target with
  | unresolved => cases known
  | script start => exact ⟨_, rfl, rfl⟩
  | library signature =>
      obtain ⟨function, found⟩ := Option.isSome_iff_exists.mp known
      simp only [callCode, found]
      split
      · exact ⟨_, rfl, rfl⟩
      · exact ⟨_, rfl, rfl⟩

theorem call_code_whole {name : String} {target : CallTarget} {arguments : List Code}
    (known : target.IsKnown manner.library around)
    (whole : ∀ argument ∈ arguments, argument.IsWhole access) :
    (callCode manner name target arguments).IsWhole access := by
  obtain ⟨callee, _, form⟩ := call_code_known known name arguments
  rw [form, Code.whole_invoke]
  exact whole

end

theorem stored_code_whole {target : ValueType} {value : Expr} {code : Code}
    (whole : code.IsWhole access) : (storedCode manner target value code).IsWhole access := by
  unfold storedCode
  split
  · exact whole
  · split
    · simp
    · simpa using whole

theorem binary_code_whole {result : ValueType} {operator : BinaryOperator} {left right : Expr}
    {leftCode rightCode : Code} (leftWhole : leftCode.IsWhole access)
    (rightWhole : rightCode.IsWhole access) :
    (binaryCode manner result operator left right leftCode rightCode).IsWhole access := by
  unfold binaryCode
  split_ifs <;> simp [leftWhole, rightWhole, stored_code_whole]

theorem prefixed_code_whole {place : Place} {operator : PrefixOperator} {operand : ValueType}
    {code : Code} (whole : code.IsWhole access) :
    (prefixedCode place operator operand code).IsWhole access := by
  unfold prefixedCode
  split_ifs <;> simp [whole]

theorem postfixed_code_whole {place : Place} {operator : PostfixOperator} {code : Code}
    (whole : code.IsWhole access) : (postfixedCode place operator code).IsWhole access := by
  unfold postfixedCode
  split_ifs <;> simp [whole]

theorem grouped_code_whole {place : Place} {code : Code} (whole : code.IsWhole access) :
    (groupedCode place code).IsWhole access := by
  unfold groupedCode
  split_ifs <;> simp [whole]

theorem cast_code_whole {target : ValueType} {operand : Expr} {code : Code}
    (whole : code.IsWhole access) : (castCode manner target operand code).IsWhole access := by
  unfold castCode
  dsimp only
  split_ifs
  · exact whole
  · split <;> simp [whole]
  · simp [whole]

theorem Expr.codes_eq (place : Place) (exprs : List Expr) :
    Expr.codes manner place exprs = exprs.map (Expr.code manner place) := by
  induction exprs with
  | nil => rfl
  | cons expr rest induction => rw [Expr.codes, induction, List.map_cons]

theorem Expr.mem_codes {place : Place} {exprs : List Expr} {code : Code} :
    code ∈ Expr.codes manner place exprs ↔ ∃ expr ∈ exprs, expr.code manner place = code := by
  rw [Expr.codes_eq, List.mem_map]

include wellFormed readable

/-- The code of an expression has no fault if every node of it is ready. -/
theorem Expr.code_whole {around : Surroundings} {expr : Expr}
    (ready : ∀ node ∈ expr.nodes, node.Ready manner.library around) (place : Place) :
    (expr.code manner place).IsWhole access := by
  induction expr using Expr.parts_induction generalizing place with
  | step expr induction =>
      have parts : ∀ part ∈ expr.parts, ∀ place, (part.code manner place).IsWhole access :=
        fun part member => induction part member fun node inside =>
          ready node (Expr.mem_nodes_of_part member inside)
      have linked := (ready expr expr.mem_nodes_self).linked
      cases expr with
      | integer info raw | hex info raw | float info raw | string info raw =>
          exact Code.whole_literal _ _ _
      | vector info x y z | rotation info x y z s =>
          simp only [Expr.parts, List.forall_mem_cons, List.not_mem_nil] at parts
          simp [Expr.code, parts]
      | list info inner elements =>
          simp only [Expr.code, Code.whole_grouped, Code.whole_create]
          intro code member
          obtain ⟨element, inside, rfl⟩ := Expr.mem_codes.mp member
          exact parts element inside _
      | reference info name binding =>
          exact reference_code_whole wellFormed readable linked
      | call info name inner arguments target =>
          refine call_code_whole linked ?_
          intro code member
          obtain ⟨argument, inside, rfl⟩ := Expr.mem_codes.mp member
          exact parts argument inside _
      | binary info operator left right =>
          exact binary_code_whole (parts left (by simp [Expr.parts]) _)
            (parts right (by simp [Expr.parts]) _)
      | prefixed info operator operand =>
          exact prefixed_code_whole (parts operand (by simp [Expr.parts]) _)
      | postfixed info operator operand =>
          exact postfixed_code_whole (parts operand (by simp [Expr.parts]) _)
      | cast info target operand =>
          exact cast_code_whole (parts operand (by simp [Expr.parts]) _)
      | grouped info inner => exact grouped_code_whole (parts inner (by simp [Expr.parts]) _)
      | component info part target =>
          simpa [Expr.code] using parts target (by simp [Expr.parts]) .elsewhere

theorem condition_code_whole {around : Surroundings} {condition : Expr}
    (ready : ∀ node ∈ condition.nodes, node.Ready manner.library around) :
    (conditionCode manner condition).IsWhole access := by
  have whole : (condition.code manner .elsewhere).IsWhole access :=
    Expr.code_whole wellFormed readable ready .elsewhere
  unfold conditionCode
  dsimp only
  split_ifs
  · rw [Code.whole_create, List.forall_mem_singleton]
    cases castLiteral? condition with
    | none => exact whole
    | some text => exact Code.whole_plain text
  · simpa using whole
  · exact whole

theorem initial_code_whole {around : Surroundings} {decl : Variable}
    (ready : ∀ value ∈ decl.initializer, ∀ node ∈ value.nodes, node.Ready manner.library around) :
    (initialCode manner decl).IsWhole access := by
  unfold initialCode
  split
  · rename_i value given
    exact stored_code_whole (Expr.code_whole wellFormed readable (ready value given) _)
  · simp

theorem clause_code_whole {around : Surroundings} {list : Option ExprList}
    (ready : ∀ expr ∈ Stmt.listExprs list, ∀ node ∈ expr.nodes,
      node.Ready manner.library around) :
    ∀ code ∈ clauseCode manner list, code.IsWhole access := by
  cases list with
  | none => simp [clauseCode]
  | some list =>
      intro code member
      obtain ⟨expr, inside, rfl⟩ := Expr.mem_codes.mp member
      exact Expr.code_whole wellFormed readable (ready expr (List.mem_of_mem_filter inside)) _

end

/-- The code of statements is written to its end. -/
def CodeStmt.AllWhole (access : GlobalAccess) (codes : List CodeStmt) : Prop :=
  ∀ depth, Fragment.failure? (CodeStmt.listFragments access depth codes) = none

namespace CodeStmt

theorem list_fragments_append (depth : Nat) (first second : List CodeStmt) :
    listFragments access depth (first ++ second) =
      listFragments access depth first ++ listFragments access depth second := by
  induction first with
  | nil => rfl
  | cons code first induction => simp [listFragments, induction]

@[simp] theorem whole_nil : AllWhole access [] := fun _ => rfl

@[simp] theorem whole_append {first second : List CodeStmt} :
    AllWhole access (first ++ second) ↔ AllWhole access first ∧ AllWhole access second := by
  simp [AllWhole, list_fragments_append, forall_and]

theorem whole_single {code : CodeStmt} :
    AllWhole access [code] ↔ ∀ depth, Fragment.failure? (code.fragments access depth) = none := by
  simp [AllWhole, listFragments]

theorem whole_cons {code : CodeStmt} {rest : List CodeStmt} :
    AllWhole access (code :: rest) ↔ AllWhole access [code] ∧ AllWhole access rest := by
  rw [← List.singleton_append, whole_append]

end CodeStmt

section

variable {manner : Manner}

theorem checkpoint_code_whole : CodeStmt.AllWhole access (checkpointCode manner) := by
  unfold checkpointCode
  split
  · simp [CodeStmt.whole_single, CodeStmt.fragments]
  · simp

theorem label_code_whole {start : Nat} {name : String} {isLast : Bool} :
    CodeStmt.AllWhole access (labelCode manner start name isLast) := by
  unfold labelCode
  split
  · simp
  · rw [CodeStmt.whole_cons]
    exact ⟨by simp [CodeStmt.whole_single, CodeStmt.fragments], checkpoint_code_whole⟩

/-- Nothing at the top of a scope is computed. -/
theorem scope_start_whole (scope : ScopeInfo) (body : List Stmt) :
    CodeStmt.AllWhole access (scopeStart manner scope body) := by
  have hoisted : CodeStmt.AllWhole access (body.flatMap (hoistedCode manner scope.id)) := by
    induction body with
    | nil => simp
    | cons stmt body induction =>
        rw [List.flatMap_cons, CodeStmt.whole_append]
        refine ⟨?_, induction⟩
        unfold hoistedCode
        split
        · split
          · simp [CodeStmt.whole_single, CodeStmt.fragments, Code.fragments]
          · simp
        · simp
  unfold scopeStart
  rw [CodeStmt.whole_append]
  refine ⟨hoisted, ?_⟩
  split
  · exact checkpoint_code_whole
  · simp

theorem scope_code_whole {inHandler : Bool} {part : CodeScope}
    (whole : CodeStmt.AllWhole access (Stmt.codes manner inHandler part.info.id part.body)) :
    CodeStmt.AllWhole access (scopeStart manner part.info part.body ++
      Stmt.codes manner inHandler part.info.id part.body) :=
  CodeStmt.whole_append.mpr ⟨scope_start_whole part.info part.body, whole⟩

variable (wellFormed : manner.library.WellFormed)
  (readable : manner.library.Readable manner.settings) {around : Surroundings}

include wellFormed readable

theorem return_code_whole {inHandler : Bool} {value : Option Expr}
    (ready : ∀ expr ∈ value.toList, ∀ node ∈ expr.nodes, node.Ready manner.library around) :
    CodeStmt.AllWhole access (returnCode manner inHandler value) := by
  cases value with
  | none => simp [returnCode, CodeStmt.whole_single, CodeStmt.fragments]
  | some value =>
      have whole : (value.code manner .elsewhere).IsWhole access :=
        Expr.code_whole wellFormed readable (ready value (by simp)) .elsewhere
      have forced : (Code.invoke (.utility "ForceStatement")
          [value.code manner .elsewhere]).IsWhole access := by
        simpa using whole
      unfold Code.IsWhole at whole forced
      unfold returnCode
      dsimp only
      split
      · rw [CodeStmt.whole_cons]
        simp [CodeStmt.whole_single, CodeStmt.fragments, forced]
      · simp [CodeStmt.whole_single, CodeStmt.fragments, whole]

theorem alternatives_code_whole {inHandler : Bool} {rest : Alternatives}
    (ready : ∀ expr ∈ rest.conditions, ∀ node ∈ expr.nodes, node.Ready manner.library around)
    (parts : ∀ part ∈ rest.parts,
      CodeStmt.AllWhole access (Stmt.codes manner inHandler part.info.id part.body)) :
    ∀ depth, Fragment.failure? ((rest.code manner inHandler).fragments access depth) = none := by
  intro depth
  match rest with
  | .done => simp [Alternatives.code, CodeAlternatives.fragments]
  | .elseIf _ condition scope body rest =>
      have tested : (conditionCode manner condition).IsWhole access :=
        condition_code_whole wellFormed readable (ready condition List.mem_cons_self)
      have own := scope_code_whole (parts ⟨scope, body⟩ List.mem_cons_self)
      have others := alternatives_code_whole
        (fun expr member => ready expr (List.mem_cons_of_mem _ member))
        (fun part member => parts part (List.mem_cons_of_mem _ member)) depth
      unfold Code.IsWhole at tested
      simp [Alternatives.code, CodeAlternatives.fragments, tested, own (depth + 1), others]
  | .otherwise _ scope body =>
      have own := scope_code_whole (parts ⟨scope, body⟩ List.mem_cons_self)
      simp [Alternatives.code, CodeAlternatives.fragments, own (depth + 1)]

theorem declaration_code_whole {scope : Nat} {info : StmtInfo} {decl : Variable}
    (ready : ∀ value ∈ decl.initializer.toList, ∀ node ∈ value.nodes,
      node.Ready manner.library around) :
    CodeStmt.AllWhole access (declarationCode manner scope info decl) := by
  have whole : (initialCode manner decl).IsWhole access :=
    initial_code_whole wellFormed readable fun value given =>
      ready value (Option.mem_toList.mpr given)
  unfold Code.IsWhole at whole
  unfold declarationCode
  split
  · simp
  · simp [CodeStmt.whole_single, CodeStmt.fragments, whole]

/-- The code of a statement has no fault if the statement is ready and its scopes have none. -/
theorem Stmt.code_whole {inHandler isLast : Bool} {scope : Nat} {stmt : Stmt}
    (ready : stmt.Ready manner.library around)
    (parts : ∀ part ∈ stmt.parts,
      CodeStmt.AllWhole access (Stmt.codes manner inHandler part.info.id part.body)) :
    CodeStmt.AllWhole access (stmt.code manner inHandler scope isLast) := by
  have exprs := ready.exprs
  cases stmt with
  | block inner body =>
      have own := scope_code_whole (parts ⟨inner, body⟩ List.mem_cons_self)
      rw [Stmt.code]
      split
      · simp
      · simp [CodeStmt.whole_single, CodeStmt.fragments, own _]
  | declare info decl =>
      rw [Stmt.code]
      split
      · simp
      · exact declaration_code_whole wellFormed readable exprs
  | perform info value =>
      have whole : (value.code manner .statement).IsWhole access :=
        Expr.code_whole wellFormed readable (exprs value List.mem_cons_self) .statement
      unfold Code.IsWhole at whole
      rw [Stmt.code]
      split
      · simp
      · simp [CodeStmt.whole_single, CodeStmt.fragments, whole]
  | giveBack info value =>
      rw [Stmt.code]
      split
      · simp
      · exact return_code_whole wellFormed readable exprs
  | jump info label target =>
      rw [Stmt.code]
      split <;> simp [CodeStmt.whole_single, CodeStmt.fragments]
  | label info name =>
      rw [Stmt.code]
      split
      · simp
      · exact label_code_whole
  | changeState info state target =>
      rw [Stmt.code]
      split <;> simp [CodeStmt.whole_single, CodeStmt.fragments]
  | branch info first condition inner body rest =>
      have tested : (conditionCode manner condition).IsWhole access :=
        condition_code_whole wellFormed readable (exprs condition List.mem_cons_self)
      have own := scope_code_whole (parts ⟨inner, body⟩ List.mem_cons_self)
      have others := alternatives_code_whole wellFormed readable
        (fun expr member => exprs expr (List.mem_cons_of_mem _ member))
        (fun part member => parts part (List.mem_cons_of_mem _ member))
      unfold Code.IsWhole at tested
      rw [Stmt.code]
      split
      · simp
      · simp [CodeStmt.whole_single, CodeStmt.fragments, tested, own _, others]
  | whileLoop info condition inner body =>
      have tested : (conditionCode manner condition).IsWhole access :=
        condition_code_whole wellFormed readable (exprs condition List.mem_cons_self)
      have own := scope_code_whole (parts ⟨inner, body⟩ List.mem_cons_self)
      unfold Code.IsWhole at tested
      rw [Stmt.code]
      split
      · simp
      · simp [CodeStmt.whole_single, CodeStmt.fragments, tested, own _]
  | doLoop info inner body condition =>
      have tested : (conditionCode manner condition).IsWhole access :=
        condition_code_whole wellFormed readable (exprs condition List.mem_cons_self)
      have own := scope_code_whole (parts ⟨inner, body⟩ List.mem_cons_self)
      unfold Code.IsWhole at tested
      rw [Stmt.code]
      split
      · simp
      · simp [CodeStmt.whole_single, CodeStmt.fragments, tested, own _]
  | forLoop info init condition afterthought inner body =>
      simp only [Stmt.exprs, List.forall_mem_append] at exprs
      obtain ⟨⟨first, tests⟩, again⟩ := exprs
      have own := scope_code_whole (parts ⟨inner, body⟩ List.mem_cons_self)
      have tested : Fragment.failure? (Code.optionFragments access
          (condition.map (conditionCode manner))) = none := by
        cases condition with
        | none => rfl
        | some condition =>
            exact condition_code_whole wellFormed readable (tests condition (by simp))
      rw [Stmt.code]
      split
      · simp
      · simp only [CodeStmt.whole_single, CodeStmt.fragments, Fragment.failure_append,
          Fragment.failure_indent, Fragment.failure_text, Fragment.failure_nil,
          Fragment.failure_braced, List.cons_append, Code.joined_whole, own _, tested, and_true]
        exact fun _ => ⟨clause_code_whole wellFormed readable first,
          clause_code_whole wellFormed readable again⟩
  | empty info => simp [Stmt.code]
  | broken span => cases ready.whole

theorem Stmt.codes_whole {inHandler : Bool} {scope : Nat} {body : List Stmt}
    (ready : ∀ stmt ∈ Stmt.listStatements body, stmt.Ready manner.library around) :
    CodeStmt.AllWhole access (Stmt.codes manner inHandler scope body) := by
  induction body using Stmt.list_induction generalizing scope with
  | nil => simp [Stmt.codes]
  | cons stmt rest inner outer =>
      rw [Stmt.codes, CodeStmt.whole_append]
      refine ⟨?_, outer fun found inside => ready found (Stmt.mem_of_rest inside)⟩
      refine Stmt.code_whole wellFormed readable
        (ready stmt (Stmt.mem_list_statements_cons.mpr (.inl rfl))) ?_
      intro part member
      exact inner part member fun found inside => ready found (Stmt.mem_of_part member inside)

theorem body_code_whole {inHandler : Bool} {scope : ScopeInfo} {body : List Stmt}
    (ready : ∀ stmt ∈ Stmt.listStatements body, stmt.Ready manner.library around) :
    CodeStmt.AllWhole access (bodyCode manner inHandler scope body) := by
  rw [bodyCode, CodeStmt.whole_append]
  exact ⟨scope_start_whole scope body, Stmt.codes_whole wellFormed readable ready⟩

end

end

/-- The method is written to its end. -/
def Method.IsWhole (access : GlobalAccess) (method : Method) : Prop :=
  CodeStmt.AllWhole access method.body

theorem Method.failure_fragments {access : GlobalAccess} {method : Method}
    (whole : method.IsWhole access) (depth : Nat) :
    Fragment.failure? (method.fragments access depth) = none := by
  simp [Method.fragments, whole (depth + 1)]

/-- A program without a fault, which has a default state. -/
structure Program.Whole (program : Program) : Prop where
  globals : ∀ global ∈ program.globals, ∀ access, global.value.IsWhole access
  methods : ∀ method ∈ program.methods, ∀ access, method.IsWhole access
  started : program.defaultState.isSome = true

namespace Program

variable {program : Program} (settings : Settings) (whole : program.Whole)

include whole

theorem failure_globals : Fragment.failure? (program.globalFragments settings) = none := by
  have assigned : ∀ (access : GlobalAccess) (marker : String) (depth : Nat),
      Fragment.failure?
        (program.globals.flatMap (GlobalField.assignment access marker depth)) = none := by
    intro access marker depth
    rw [Fragment.failure_flat_map]
    intro global member
    have fine := whole.globals global member access
    unfold Code.IsWhole at fine
    simp [GlobalField.assignment, fine]
  have declared : ∀ (marker : String) (depth : Nat),
      Fragment.failure?
        (program.globals.flatMap (GlobalField.declaration marker depth)) = none := by
    intro marker depth
    simp [GlobalField.declaration]
  unfold globalFragments fieldFragments containerFragments
  dsimp only
  split
  · split <;> simp [assigned, declared]
  · split <;> simp [assigned, declared]

theorem failure_functions : Fragment.failure? (program.functionFragments settings) = none := by
  unfold functionFragments
  split
  · rfl
  · simp only [Fragment.failure_append, Fragment.failure_banner, Fragment.failure_gap,
      Fragment.failure_nil, Fragment.failure_flat_map, true_and, and_true]
    intro method member
    exact Method.failure_fragments (whole.methods method (by simp [methods, member]) _) _

omit whole in
theorem failure_handlers {handlers : List Method}
    (fine : ∀ method ∈ handlers, ∀ access, method.IsWhole access) :
    Fragment.failure? (handlerFragments settings handlers) = none := by
  unfold handlerFragments
  rw [Fragment.failure_separated (by simp)]
  intro item member
  obtain ⟨method, inside, rfl⟩ := List.mem_map.mp member
  exact Method.failure_fragments (fine method inside _) _

theorem failure_states : Fragment.failure? (program.stateFragments settings) = none := by
  obtain ⟨handlers, initial⟩ := Option.isSome_iff_exists.mp whole.started
  have first : Fragment.failure? (handlerFragments settings handlers) = none :=
    failure_handlers settings fun method member =>
      whole.methods method (by simp [methods, initial, member])
  have others : ∀ handlers ∈ program.states,
      Fragment.failure? (handlerFragments settings handlers) = none := by
    intro handlers inside
    refine failure_handlers settings fun method member => whole.methods method ?_
    simp only [methods, List.mem_append, List.mem_flatten]
    exact .inl (.inr ⟨handlers, inside, member⟩)
  unfold stateFragments
  simp only [initial]
  split
  · simp [first]
  · simpa [first] using others

omit whole in
theorem failure_operations : Fragment.failure? (program.operationFragments settings) = none := by
  unfold operationFragments
  dsimp only
  split
  · rfl
  · simp only [Fragment.failure_append, Fragment.failure_gap, Fragment.failure_nil,
      Fragment.failure_banner, true_and]
    rw [Fragment.failure_separated rfl]
    intro item member
    obtain ⟨operation, _, rfl⟩ := List.mem_map.mp member
    simp [Operation.fragments]

omit whole in
theorem failure_class :
    Fragment.failure? settings.classStart = none ∧ Fragment.failure? settings.classEnd = none := by
  constructor
  · unfold Settings.classStart Settings.importFragments Settings.namespaceFragments
    dsimp only
    split <;> split <;> simp
  · unfold Settings.classEnd
    split <;> simp

/-- A program without a fault is written to its end. -/
theorem failure_fragments (date : String) :
    Fragment.failure? (program.fragments settings date) = none := by
  have header : Fragment.failure? (settings.headerFragments date) = none := by
    unfold Settings.headerFragments
    split <;> simp
  unfold fragments
  simp only [Fragment.failure_append, header, failure_globals settings whole,
    failure_functions settings whole, failure_states settings whole, failure_operations]
  split <;> simp [failure_class]

end Program

theorem StateDecl.mem_code {manner : Manner} {state : StateDecl} {method : Method}
    (member : method ∈ state.code manner) :
    ∃ decl ∈ state.handlers, method = decl.code manner state.name := by
  obtain ⟨part, inside, found⟩ := List.mem_filterMap.mp member
  cases part with
  | handler decl =>
      exact ⟨decl, List.mem_filterMap.mpr ⟨_, inside, rfl⟩, (Option.some.inj found).symm⟩
  | broken span => cases found

/-- The methods of a program are those of functions that something calls, and of handlers. -/
theorem Script.mem_methods {library : Library} {settings : Settings} {script : Script}
    {method : Method} (member : method ∈ (script.program library settings).methods) :
    (∃ decl ∈ script.functions, method = decl.code ⟨library, settings, script.uses⟩) ∨
      ∃ state ∈ script.allStates, ∃ decl ∈ state.handlers,
        method = decl.code ⟨library, settings, script.uses⟩ state.name := by
  simp only [Program.methods, Script.program, List.mem_append, List.mem_flatten] at member
  rcases member with (member | ⟨handlers, inside, member⟩) | member
  · obtain ⟨decl, inside, rfl⟩ := List.mem_map.mp member
    exact .inl ⟨decl, List.mem_of_mem_filter inside, rfl⟩
  · obtain ⟨state, known, rfl⟩ := List.mem_map.mp inside
    exact .inr ⟨state, List.mem_append_right _ known, StateDecl.mem_code member⟩
  · cases initial : script.defaultState with
    | none => simp [initial] at member
    | some first =>
        simp only [initial, Option.map_some, Option.getD_some] at member
        exact .inr ⟨first, by simp [Script.allStates, initial], StateDecl.mem_code member⟩

/-- The program of a script that nothing is wrong with has no fault. -/
theorem Script.program_whole {library : Library} {settings : Settings} {script : Script}
    (wellFormed : library.WellFormed) (readable : library.Readable settings)
    (ready : script.Ready library) : (script.program library settings).Whole := by
  refine ⟨?_, ?_, ?_⟩
  · intro field member access
    obtain ⟨global, inside, rfl⟩ := List.mem_map.mp member
    exact initial_code_whole wellFormed readable
      (ready.globals global (List.mem_of_mem_filter inside)).value
  · intro method member access
    rcases Script.mem_methods member with ⟨decl, inside, rfl⟩ | ⟨state, known, decl, inside, rfl⟩
    · exact body_code_whole wellFormed readable (ready.functions decl inside).body
    · have handler := (ready.states state known).handlers decl inside
      exact body_code_whole wellFormed readable handler.body
  · simpa [Script.program] using ready.started

theorem compile_ready {library : Library} {settings : Settings} {script : Script}
    (wellFormed : library.WellFormed) (readable : library.Readable settings)
    (valid : settings.validate = .ok ()) (ready : script.Ready library) (date : String) :
    (compile library settings date script).failure = none := by
  have granted : checkRequest settings script.hasErrors = .ok () := by
    simp [checkRequest, ready.whole, valid]
  simp only [compile, granted, Output.ofFragments]
  exact Program.failure_fragments settings (Script.program_whole wellFormed readable ready) date

/-- An accepted source always compiles: whatever the settings, if they are valid and the lists among
the expanded constants can be read, code is generated to its end. Every name is then bound, every
call has a target that the library finds again, and every local variable is declared directly in a
scope of its body. -/
theorem accepted_compiles {library : Library} {settings : Settings} {source : String}
    (wellFormed : library.WellFormed) (readable : library.Readable settings)
    (valid : settings.validate = .ok ()) (accepted : Accepted library source) (date : String) :
    (compile library settings date (checkSource library source).value).failure = none ∧
      (checkSource library source).value.Ready library ∧
      ∀ body ∈ (checkSource library source).value.bodies,
        ∀ stmt ∈ Stmt.listStatements body.body, ∀ start ∈ stmt.declaration?,
          ∃ id, (start, id) ∈ body.declarations := by
  have ready := accepted.ready wellFormed
  refine ⟨compile_ready wellFormed readable valid ready date, ready, ?_⟩
  intro body _ stmt inside start declares
  obtain ⟨scope, scopeInside, member⟩ := CodeScope.scope_of_statement inside
  exact ⟨scope.info.id, CodeScope.held_subset scopeInside
    (CodeScope.mem_held.mpr ⟨⟨stmt, member, declares⟩, rfl⟩)⟩

/-- A library with one event, one function and one constant, a list that is written out. -/
def Library.small : Library where
  events := [⟨⟨"state_entry", []⟩, {}⟩]
  functions := [⟨⟨"say", .void, [⟨"channel", .integer, false, 0⟩, ⟨"text", .string, false, 1⟩]⟩, {}⟩]
  constants := [⟨⟨"ZERO", .list, "0, <1.0, 0.0, 0.0>"⟩, { properties := [("Expand", "true")] }⟩]

theorem small_script_compiles :
    let source := "list all = ZERO; integer next(integer n) \x7b all += n; return n + 1; \x7d " ++
      "default \x7b state_entry() \x7b \x7b key k; say(next(-1), k); \x7d \x7d \x7d"
    Library.small.WellFormed ∧ Library.small.Readable {} ∧ Settings.validate {} = .ok () ∧
      Accepted .small source ∧
      (compile .small {} "" (checkSource .small source).value).failure = none ∧
      (checkSource .small source).value.Ready .small := by
  intro source
  have wellFormed : Library.small.WellFormed := ⟨by decide +kernel, by decide +kernel⟩
  have readable : Library.small.Readable {} := by
    intro constant member _ _
    obtain rfl := List.mem_singleton.mp member
    exact ⟨"new LSL_Types.list(new LSL_Types.LSLInteger(0), " ++
      "new LSL_Types.Vector3(1.0, 0.0, 0.0))", by decide +kernel⟩
  have valid : Settings.validate {} = .ok () := by decide +kernel
  have spelled : source = String.ofList _ := String.ofList_append.symm
  have accepted : Accepted .small source := by
    simp only [Accepted, check_source_spelled spelled]
    decide +kernel
  have compiled := accepted_compiles wellFormed readable valid accepted ""
  exact ⟨wellFormed, readable, valid, accepted, compiled.1, compiled.2.1⟩

end Lsl
