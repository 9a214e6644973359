import Lsl.Proofs.Generation.Progress
import Lsl.Proofs.Syntax.Bodies

/-!
What generated code asks of its program: functions of the script that it calls, globals that it
reads or sets, and operations. Code for a body asks only for what nodes of the body stand for.
-/

set_option autoImplicit false

namespace Lsl

/-- The operation that generated code calls for an operator, if it calls any. -/
def BinaryOperator.called? (operator : BinaryOperator) (left right result : ValueType) :
    Option Operation :=
  if operator.isLogical ∨ operator = .assign ∨
      (operator = .multiplyAssign ∧ left = .integer ∧ right = .float) then none
  else
    let plain := operator.underlying
    some ⟨left, plain, right,
      if operator.isModifying then (plain.result? left right).getD result else result⟩

namespace Code

/-- The term stands for something that its program has to have. -/
def isRequest : Code → Bool
  | global _ => true
  | invoke (.script _) _ => true
  | operate _ _ _ => true
  | _ => false

/-- The code asks for nothing but what is granted. -/
def Asks (granted : Code → Prop) (code : Code) : Prop :=
  ∀ term ∈ code.terms, term.isRequest = true → granted term

variable {granted : Code → Prop}

theorem asks_iff {code : Code} :
    code.Asks granted ↔
      (code.isRequest = true → granted code) ∧ ∀ part ∈ code.parts, part.Asks granted := by
  simp only [Asks, terms_eq code, List.forall_mem_cons, List.forall_mem_flatMap]

/-- A term that is no request asks for what its parts ask for. -/
theorem asks_of_parts {code : Code} (parts : List Code) (silent : code.isRequest = false)
    (made : code.parts = parts) : code.Asks granted ↔ ∀ part ∈ parts, part.Asks granted := by
  rw [asks_iff, silent, made]
  simp only [Bool.false_eq_true, false_implies, true_and]

theorem asks_of_request {code : Code} (parts : List Code) (request : code.isRequest = true)
    (made : code.parts = parts) :
    code.Asks granted ↔ granted code ∧ ∀ part ∈ parts, part.Asks granted := by
  rw [asks_iff, request, made]
  simp only [true_implies]

@[simp] theorem asks_plain (text : String) : (plain text).Asks granted :=
  (asks_of_parts [] rfl rfl).mpr (by simp)

@[simp] theorem asks_fault (reason : String) : (fault reason).Asks granted :=
  (asks_of_parts [] rfl rfl).mpr (by simp)

@[simp] theorem asks_global {name : String} : (global name).Asks granted ↔ granted (global name) :=
  (asks_of_request [] rfl rfl).trans (by simp)

@[simp] theorem asks_create {type separator : String} {arguments : List Code} :
    (create type separator arguments).Asks granted ↔
      ∀ argument ∈ arguments, argument.Asks granted :=
  asks_of_parts arguments rfl rfl

theorem asks_invoke {callee : Callee} {arguments : List Code} :
    (invoke callee arguments).Asks granted ↔
      (∀ name, callee = .script name → granted (invoke callee arguments)) ∧
        ∀ argument ∈ arguments, argument.Asks granted :=
  asks_iff.trans (by cases callee <;> simp [isRequest, parts])

@[simp] theorem asks_utility {name : String} {arguments : List Code} :
    (invoke (.utility name) arguments).Asks granted ↔
      ∀ argument ∈ arguments, argument.Asks granted :=
  asks_invoke.trans (by simp)

@[simp] theorem asks_operate {operation : Operation} {right left : Code} :
    (operate operation right left).Asks granted ↔
      granted (operate operation right left) ∧ right.Asks granted ∧ left.Asks granted :=
  (asks_of_request [right, left] rfl rfl).trans (by simp)

@[simp] theorem asks_logical {symbol : String} {right left : Code} :
    (logical symbol right left).Asks granted ↔ right.Asks granted ∧ left.Asks granted :=
  (asks_of_parts [right, left] rfl rfl).trans (by simp)

@[simp] theorem asks_assign {target value : Code} :
    (assign target value).Asks granted ↔ target.Asks granted ∧ value.Asks granted :=
  (asks_of_parts [target, value] rfl rfl).trans (by simp)

@[simp] theorem asks_rounded_product {target factor : Code} :
    (roundedProduct target factor).Asks granted ↔ target.Asks granted ∧ factor.Asks granted :=
  (asks_of_parts [target, factor] rfl rfl).trans (by simp)

@[simp] theorem asks_before {symbol : String} {operand : Code} :
    (before symbol operand).Asks granted ↔ operand.Asks granted :=
  (asks_of_parts [operand] rfl rfl).trans (by simp)

@[simp] theorem asks_behind {operand : Code} {symbol : String} :
    (behind operand symbol).Asks granted ↔ operand.Asks granted :=
  (asks_of_parts [operand] rfl rfl).trans (by simp)

@[simp] theorem asks_convert {type : String} {operand : Code} :
    (convert type operand).Asks granted ↔ operand.Asks granted :=
  (asks_of_parts [operand] rfl rfl).trans (by simp)

@[simp] theorem asks_grouped {inner : Code} :
    (grouped inner).Asks granted ↔ inner.Asks granted :=
  (asks_of_parts [inner] rfl rfl).trans (by simp)

@[simp] theorem asks_component {target : Code} {name : String} :
    (component target name).Asks granted ↔ target.Asks granted :=
  (asks_of_parts [target] rfl rfl).trans (by simp)

@[simp] theorem asks_literal (place : Place) (kind : LiteralKind) (text : String) :
    (literalCode place kind text).Asks granted := by
  unfold literalCode
  split <;> simp

end Code

/-- What the code of a node by itself asks for is granted. -/
def Expr.Asks (manner : Manner) (granted : Code → Prop) : Expr → Prop
  | .reference _ name (.global _) => granted (.global name)
  | .call _ name _ arguments (.script _) =>
    granted (.invoke (.script name) (Expr.codes manner (.argument false) arguments))
  | .binary info operator left right =>
    ∀ operation ∈ operator.called? left.type right.type (info.type.getD .void),
      granted (.operate operation (right.code manner .operand) (left.code manner .operand))
  | _ => True

section

variable {manner : Manner} {granted : Code → Prop}

@[simp] theorem asks_constant (settings : Settings) (constant : LibraryConstant) :
    (constantCode settings constant).Asks granted := by
  unfold constantCode
  split
  · split <;> simp
  · simp

theorem reference_code_asks {info : ExprInfo} {name : String} {binding : Binding}
    (own : (Expr.reference info name binding).Asks manner granted) :
    (referenceCode manner name binding).Asks granted := by
  cases binding with
  | global start => exact Code.asks_global.mpr own
  | constant =>
      unfold referenceCode
      dsimp only
      split <;> simp
  | _ => simp [referenceCode]

theorem call_code_asks {info : ExprInfo} {name : String} {inner : Span} {arguments : List Expr}
    {target : CallTarget} (own : (Expr.call info name inner arguments target).Asks manner granted)
    (fine : ∀ place, ∀ code ∈ Expr.codes manner place arguments, code.Asks granted)
    (place : Place) : ((Expr.call info name inner arguments target).code manner place).Asks
      granted := by
  rw [Expr.code]
  cases target with
  | script start => exact Code.asks_invoke.mpr ⟨fun _ _ => own, fine _⟩
  | library signature =>
      unfold callCode
      dsimp only
      split
      · simp
      · split
        · exact Code.asks_invoke.mpr ⟨fun _ same => (nomatch same), fine _⟩
        · exact Code.asks_invoke.mpr ⟨fun _ same => (nomatch same), fine _⟩
  | unresolved => simp [callCode]

theorem stored_code_asks {target : ValueType} {value : Expr} {code : Code}
    (fine : code.Asks granted) : (storedCode manner target value code).Asks granted := by
  unfold storedCode
  split
  · exact fine
  · split
    · simp
    · simpa using fine

theorem binary_code_asks {info : ExprInfo} {operator : BinaryOperator} {left right : Expr}
    (own : (Expr.binary info operator left right).Asks manner granted)
    (leftFine : ∀ place, (left.code manner place).Asks granted)
    (rightFine : ∀ place, (right.code manner place).Asks granted) (place : Place) :
    ((Expr.binary info operator left right).code manner place).Asks granted := by
  have called (operation : Operation)
      (calls : operator.called? left.type right.type (info.type.getD .void) = some operation) :
      (Code.operate operation (right.code manner .operand) (left.code manner .operand)).Asks
        granted :=
    Code.asks_operate.mpr ⟨own operation calls, rightFine _, leftFine _⟩
  rw [Expr.code]
  by_cases logical : operator.isLogical = true
  · cases operator with
    | logicalAnd | logicalOr => exact Code.asks_logical.mpr ⟨rightFine _, leftFine _⟩
    | _ => cases logical
  · simp only [if_neg logical]
    unfold binaryCode
    split_ifs with both either rounds assigns modifies
    · exact absurd (both ▸ rfl) logical
    · exact absurd (either ▸ rfl) logical
    · simp [leftFine, rightFine]
    · exact Code.asks_assign.mpr ⟨leftFine _, stored_code_asks (rightFine _)⟩
    · refine Code.asks_assign.mpr ⟨leftFine _, called _ ?_⟩
      simp [BinaryOperator.called?, logical, assigns, rounds, modifies]
    · have same : operator.underlying = operator := by
        cases operator <;> first | rfl | exact absurd rfl modifies
      refine called _ ?_
      simp [BinaryOperator.called?, logical, assigns, rounds, modifies, same]

theorem prefixed_code_asks {place : Place} {operator : PrefixOperator} {operand : ValueType}
    {code : Code} (fine : code.Asks granted) :
    (prefixedCode place operator operand code).Asks granted := by
  unfold prefixedCode
  split_ifs <;> simp [fine]

theorem postfixed_code_asks {place : Place} {operator : PostfixOperator} {code : Code}
    (fine : code.Asks granted) : (postfixedCode place operator code).Asks granted := by
  unfold postfixedCode
  split_ifs <;> simp [fine]

theorem grouped_code_asks {place : Place} {code : Code} (fine : code.Asks granted) :
    (groupedCode place code).Asks granted := by
  unfold groupedCode
  split_ifs <;> simp [fine]

theorem cast_code_asks {target : ValueType} {operand : Expr} {code : Code}
    (fine : code.Asks granted) : (castCode manner target operand code).Asks granted := by
  unfold castCode
  dsimp only
  split_ifs
  · exact fine
  · split <;> simp [fine]
  · simp [fine]

/-- The code of an expression asks for what its nodes ask for. -/
theorem Expr.code_asks {expr : Expr} (own : ∀ node ∈ expr.nodes, node.Asks manner granted)
    (place : Place) : (expr.code manner place).Asks granted := by
  induction expr using Expr.parts_induction generalizing place with
  | step expr induction =>
      have here := own expr expr.mem_nodes_self
      have parts (part : Expr) (member : part ∈ expr.parts) (place : Place) :
          (part.code manner place).Asks granted :=
        induction part member (fun node inside => own node (mem_nodes_of_part member inside)) place
      have listed {exprs : List Expr} (among : exprs ⊆ expr.parts) (place : Place) :
          ∀ code ∈ codes manner place exprs, code.Asks granted := by
        intro code member
        rw [codes_eq, List.mem_map] at member
        obtain ⟨part, inside, rfl⟩ := member
        exact parts part (among inside) place
      cases expr with
      | integer info raw | hex info raw | float info raw | string info raw =>
          exact Code.asks_literal _ _ _
      | vector info x y z | rotation info x y z s =>
          simp only [Expr.parts, List.forall_mem_cons, List.not_mem_nil] at parts
          simp [Expr.code, parts]
      | list info inner elements =>
          rw [Expr.code, Code.asks_grouped, Code.asks_create]
          exact listed (List.Subset.refl _) _
      | reference info name binding => exact reference_code_asks here
      | call info name inner arguments target =>
          exact call_code_asks here (listed (List.Subset.refl _)) place
      | binary info operator left right =>
          exact binary_code_asks here (parts left (by simp [Expr.parts]))
            (parts right (by simp [Expr.parts])) place
      | prefixed info operator operand =>
          exact prefixed_code_asks (parts operand (by simp [Expr.parts]) _)
      | postfixed info operator operand =>
          exact postfixed_code_asks (parts operand (by simp [Expr.parts]) _)
      | cast info target operand => exact cast_code_asks (parts operand (by simp [Expr.parts]) _)
      | grouped info inner => exact grouped_code_asks (parts inner (by simp [Expr.parts]) _)
      | component info part target =>
          simpa [Expr.code] using parts target (by simp [Expr.parts]) .elsewhere

theorem condition_code_asks {condition : Expr}
    (own : ∀ node ∈ condition.nodes, node.Asks manner granted) :
    (conditionCode manner condition).Asks granted := by
  have fine : (condition.code manner .elsewhere).Asks granted := Expr.code_asks own .elsewhere
  unfold conditionCode
  dsimp only
  split_ifs
  · rw [Code.asks_create, List.forall_mem_singleton]
    cases castLiteral? condition with
    | none => exact fine
    | some text => exact Code.asks_plain text
  · simpa using fine
  · exact fine

theorem initial_code_asks {decl : Variable}
    (own : ∀ value ∈ decl.initializer, ∀ node ∈ value.nodes, node.Asks manner granted) :
    (initialCode manner decl).Asks granted := by
  unfold initialCode
  split
  · rename_i value given
    exact stored_code_asks (Expr.code_asks (own value given) _)
  · simp

theorem clause_code_asks {list : Option ExprList}
    (own : ∀ expr ∈ Stmt.listExprs list, ∀ node ∈ expr.nodes, node.Asks manner granted) :
    ∀ code ∈ clauseCode manner list, code.Asks granted := by
  cases list with
  | none => simp [clauseCode]
  | some list =>
      intro code member
      obtain ⟨expr, inside, rfl⟩ := Expr.mem_codes.mp member
      exact Expr.code_asks (own expr (List.mem_of_mem_filter inside)) _

end

/-- The code of statements asks for nothing but what is granted. -/
def CodeStmt.AllAsk (granted : Code → Prop) (codes : List CodeStmt) : Prop :=
  ∀ term ∈ CodeStmt.listTerms codes, term.isRequest = true → granted term

section

variable {manner : Manner} {granted : Code → Prop}

namespace CodeStmt

@[simp] theorem all_ask_nil : AllAsk granted [] := fun _ member => nomatch member

@[simp] theorem all_ask_append {first second : List CodeStmt} :
    AllAsk granted (first ++ second) ↔ AllAsk granted first ∧ AllAsk granted second := by
  simp only [AllAsk, list_terms_append, List.forall_mem_append]

theorem all_ask_single {code : CodeStmt} :
    AllAsk granted [code] ↔ ∀ term ∈ code.terms, term.isRequest = true → granted term := by
  simp only [AllAsk, listTerms, List.append_nil]

theorem all_ask_cons {code : CodeStmt} {rest : List CodeStmt} :
    AllAsk granted (code :: rest) ↔ AllAsk granted [code] ∧ AllAsk granted rest := by
  rw [← List.singleton_append, all_ask_append]

theorem all_ask_perform {value : Code} :
    AllAsk granted [.perform value] ↔ value.Asks granted := by
  rw [all_ask_single, terms, Code.Asks]

theorem all_ask_declare {type name : String} {value : Code} :
    AllAsk granted [.declare type name value] ↔ value.Asks granted := by
  rw [all_ask_single, terms, Code.Asks]

theorem all_ask_give_back {value : Code} :
    AllAsk granted [.giveBack (some value)] ↔ value.Asks granted := by
  rw [all_ask_single, terms, Code.optionTerms, Code.Asks]

theorem all_ask_block {body : List CodeStmt} :
    AllAsk granted [.block body] ↔ AllAsk granted body := by
  rw [all_ask_single, terms, AllAsk]

/-- Statements without terms ask for nothing. -/
theorem all_ask_of_silent {code : CodeStmt} (silent : code.terms = []) :
    AllAsk granted [code] := by
  rw [all_ask_single, silent]
  exact fun _ member => nomatch member

end CodeStmt

theorem checkpoint_code_asks : CodeStmt.AllAsk granted (checkpointCode manner) := by
  unfold checkpointCode
  split
  · exact CodeStmt.all_ask_of_silent rfl
  · exact CodeStmt.all_ask_nil

theorem label_code_asks {start : Nat} {name : String} {isLast : Bool} :
    CodeStmt.AllAsk granted (labelCode manner start name isLast) := by
  unfold labelCode
  split
  · exact CodeStmt.all_ask_nil
  · exact CodeStmt.all_ask_cons.mpr ⟨CodeStmt.all_ask_of_silent rfl, checkpoint_code_asks⟩

theorem scope_start_asks (scope : ScopeInfo) (body : List Stmt) :
    CodeStmt.AllAsk granted (scopeStart manner scope body) := by
  have hoisted : CodeStmt.AllAsk granted (body.flatMap (hoistedCode manner scope.id)) := by
    induction body with
    | nil => exact CodeStmt.all_ask_nil
    | cons stmt body induction =>
        rw [List.flatMap_cons, CodeStmt.all_ask_append]
        refine ⟨?_, induction⟩
        unfold hoistedCode
        split
        · split
          · exact CodeStmt.all_ask_declare.mpr (Code.asks_plain _)
          · exact CodeStmt.all_ask_nil
        · exact CodeStmt.all_ask_nil
  unfold scopeStart
  rw [CodeStmt.all_ask_append]
  refine ⟨hoisted, ?_⟩
  split
  · exact checkpoint_code_asks
  · exact CodeStmt.all_ask_nil

theorem scope_code_asks {inHandler : Bool} (part : CodeScope)
    (inner : CodeStmt.AllAsk granted (Stmt.codes manner inHandler part.info.id part.body)) :
    CodeStmt.AllAsk granted (scopeStart manner part.info part.body ++
      Stmt.codes manner inHandler part.info.id part.body) :=
  CodeStmt.all_ask_append.mpr ⟨scope_start_asks part.info part.body, inner⟩

theorem return_code_asks {inHandler : Bool} {value : Option Expr}
    (own : ∀ expr ∈ value.toList, ∀ node ∈ expr.nodes, node.Asks manner granted) :
    CodeStmt.AllAsk granted (returnCode manner inHandler value) := by
  cases value with
  | none => exact CodeStmt.all_ask_of_silent rfl
  | some value =>
      have fine : (value.code manner .elsewhere).Asks granted :=
        Expr.code_asks (own value (by simp)) .elsewhere
      have forced : (Code.invoke (.utility "ForceStatement")
          [value.code manner .elsewhere]).Asks granted := by
        simpa using fine
      unfold returnCode
      dsimp only
      split
      · exact CodeStmt.all_ask_cons.mpr
          ⟨CodeStmt.all_ask_perform.mpr forced, CodeStmt.all_ask_of_silent rfl⟩
      · exact CodeStmt.all_ask_give_back.mpr fine

theorem alternatives_code_asks {inHandler : Bool} {rest : Alternatives}
    (own : ∀ expr ∈ rest.conditions, ∀ node ∈ expr.nodes, node.Asks manner granted)
    (parts : ∀ part ∈ rest.parts,
      CodeStmt.AllAsk granted (Stmt.codes manner inHandler part.info.id part.body)) :
    ∀ term ∈ (rest.code manner inHandler).terms, term.isRequest = true → granted term := by
  match rest with
  | .done => exact fun _ member => nomatch member
  | .elseIf _ condition scope body rest =>
      have others := alternatives_code_asks
        (fun expr member => own expr (List.mem_cons_of_mem _ member))
        (fun part member => parts part (List.mem_cons_of_mem _ member))
      rw [Alternatives.code, CodeAlternatives.terms, List.forall_mem_append,
        List.forall_mem_append]
      exact ⟨⟨condition_code_asks (own condition List.mem_cons_self),
        scope_code_asks ⟨scope, body⟩ (parts _ List.mem_cons_self)⟩, others⟩
  | .otherwise _ scope body => exact scope_code_asks ⟨scope, body⟩ (parts _ List.mem_cons_self)

/-- The code of a statement asks for what its expressions ask for, if that of its scopes does. -/
theorem Stmt.code_asks {inHandler isLast : Bool} {scope : Nat} {stmt : Stmt}
    (own : ∀ expr ∈ stmt.exprs, ∀ node ∈ expr.nodes, node.Asks manner granted)
    (parts : ∀ part ∈ stmt.parts,
      CodeStmt.AllAsk granted (Stmt.codes manner inHandler part.info.id part.body)) :
    CodeStmt.AllAsk granted (stmt.code manner inHandler scope isLast) := by
  cases stmt with
  | block inner body =>
      rw [Stmt.code]
      split
      · exact CodeStmt.all_ask_nil
      · exact CodeStmt.all_ask_block.mpr (scope_code_asks ⟨inner, body⟩ (parts _ List.mem_cons_self))
  | declare info decl =>
      rw [Stmt.code]
      split
      · exact CodeStmt.all_ask_nil
      · unfold declarationCode
        split
        · exact CodeStmt.all_ask_nil
        · exact CodeStmt.all_ask_declare.mpr
            (initial_code_asks fun value given => own value (Option.mem_toList.mpr given))
  | perform info value =>
      rw [Stmt.code]
      split
      · exact CodeStmt.all_ask_nil
      · exact CodeStmt.all_ask_perform.mpr (Expr.code_asks (own value List.mem_cons_self) _)
  | giveBack info value =>
      rw [Stmt.code]
      split
      · exact CodeStmt.all_ask_nil
      · exact return_code_asks own
  | jump info label target | changeState info name target =>
      rw [Stmt.code]
      split
      · exact CodeStmt.all_ask_nil
      · exact CodeStmt.all_ask_of_silent rfl
  | label info name =>
      rw [Stmt.code]
      split
      · exact CodeStmt.all_ask_nil
      · exact label_code_asks
  | branch info first condition inner body rest =>
      have tested : (conditionCode manner condition).Asks granted :=
        condition_code_asks (own condition List.mem_cons_self)
      have others := alternatives_code_asks
        (fun expr member => own expr (List.mem_cons_of_mem _ member))
        (fun part member => parts part (List.mem_cons_of_mem _ member))
      rw [Stmt.code]
      split
      · exact CodeStmt.all_ask_nil
      · rw [CodeStmt.all_ask_single, CodeStmt.terms, List.forall_mem_append,
          List.forall_mem_append]
        exact ⟨⟨tested, scope_code_asks ⟨inner, body⟩ (parts _ List.mem_cons_self)⟩, others⟩
  | whileLoop info condition inner body =>
      rw [Stmt.code]
      split
      · exact CodeStmt.all_ask_nil
      · rw [CodeStmt.all_ask_single, CodeStmt.terms, List.forall_mem_append]
        exact ⟨condition_code_asks (own condition List.mem_cons_self),
          scope_code_asks ⟨inner, body⟩ (parts _ List.mem_cons_self)⟩
  | doLoop info inner body condition =>
      rw [Stmt.code]
      split
      · exact CodeStmt.all_ask_nil
      · rw [CodeStmt.all_ask_single, CodeStmt.terms, List.forall_mem_append]
        exact ⟨scope_code_asks ⟨inner, body⟩ (parts _ List.mem_cons_self),
          condition_code_asks (own condition List.mem_cons_self)⟩
  | forLoop info init condition afterthought inner body =>
      simp only [Stmt.exprs, List.forall_mem_append] at own
      obtain ⟨⟨first, tests⟩, again⟩ := own
      have listed {list : Option ExprList}
          (own : ∀ expr ∈ Stmt.listExprs list, ∀ node ∈ expr.nodes, node.Asks manner granted) :
          ∀ term ∈ Code.listTerms (clauseCode manner list), term.isRequest = true →
            granted term := by
        intro term member
        rw [Code.list_terms_eq, List.mem_flatMap] at member
        obtain ⟨code, inside, member⟩ := member
        exact clause_code_asks own code inside term member
      have tested : ∀ term ∈ Code.optionTerms (condition.map (conditionCode manner)),
          term.isRequest = true → granted term := by
        cases condition with
        | none => simp [Code.optionTerms]
        | some condition => exact condition_code_asks (tests condition (by simp))
      rw [Stmt.code]
      split
      · exact CodeStmt.all_ask_nil
      · simp only [CodeStmt.all_ask_single, CodeStmt.terms, List.forall_mem_append]
        exact ⟨⟨⟨listed first, tested⟩, listed again⟩,
          scope_code_asks ⟨inner, body⟩ (parts _ List.mem_cons_self)⟩
  | empty info => exact CodeStmt.all_ask_nil
  | broken span => exact CodeStmt.all_ask_of_silent rfl

theorem Stmt.codes_ask {inHandler : Bool} {scope : Nat} {body : List Stmt}
    (own : ∀ stmt ∈ Stmt.listStatements body, ∀ expr ∈ stmt.exprs, ∀ node ∈ expr.nodes,
      node.Asks manner granted) :
    CodeStmt.AllAsk granted (Stmt.codes manner inHandler scope body) := by
  induction body using Stmt.list_induction generalizing scope with
  | nil => exact CodeStmt.all_ask_nil
  | cons stmt rest inner outer =>
      rw [Stmt.codes, CodeStmt.all_ask_append]
      refine ⟨?_, outer fun found inside => own found (Stmt.mem_of_rest inside)⟩
      refine Stmt.code_asks (own stmt (Stmt.mem_list_statements_cons.mpr (.inl rfl))) ?_
      intro part member
      exact inner part member fun found inside => own found (Stmt.mem_of_part member inside)

theorem body_code_asks {inHandler : Bool} {scope : ScopeInfo} {body : List Stmt}
    (own : ∀ stmt ∈ Stmt.listStatements body, ∀ expr ∈ stmt.exprs, ∀ node ∈ expr.nodes,
      node.Asks manner granted) :
    CodeStmt.AllAsk granted (bodyCode manner inHandler scope body) := by
  rw [bodyCode, CodeStmt.all_ask_append]
  exact ⟨scope_start_asks scope body, Stmt.codes_ask own⟩

end

end Lsl
