import Lsl.Proofs.Checking.Spelling
import Lsl.Proofs.Flow.Liveness
import Lsl.Proofs.Generation.Emission

/-!
The effects of a body. Its code has those of the live statements of the body, once each, and no
others; what is left out has none. Operands of operations are written from right to left.
-/

set_option autoImplicit false

namespace Lsl

namespace CodeStmt

/-- The effects and operations of statements. -/
def acts (codes : List CodeStmt) : List Code := (listTerms codes).filter Code.isAct

@[simp] theorem acts_nil : acts [] = [] := rfl

@[simp] theorem acts_append (first second : List CodeStmt) :
    acts (first ++ second) = acts first ++ acts second := by
  simp [acts, list_terms_append]

theorem acts_cons (stmt : CodeStmt) (rest : List CodeStmt) :
    acts (stmt :: rest) = stmt.terms.filter Code.isAct ++ acts rest := by
  simp [acts, listTerms]

theorem acts_single (stmt : CodeStmt) : acts [stmt] = stmt.terms.filter Code.isAct := by
  simp [acts, listTerms]

end CodeStmt

@[simp] theorem Code.filter_terms (code : Code) : code.terms.filter isAct = code.acts := rfl

@[simp] theorem Code.filter_list_terms (codes : List Code) :
    (listTerms codes).filter isAct = codes.flatMap acts := by
  rw [list_terms_eq, List.filter_flatMap]
  rfl

theorem Code.filter_acts {test : Code → Bool} (act : ∀ code, test code = true → code.isAct = true)
    (codes : List Code) : (codes.filter isAct).filter test = codes.filter test := by
  rw [List.filter_filter]
  exact List.filter_congr fun code _ => by simpa using act code

@[simp] theorem CodeStmt.filter_list_terms (codes : List CodeStmt) :
    (listTerms codes).filter Code.isAct = acts codes := rfl

namespace Expr

def listActs (manner : Manner) (exprs : List Expr) : List Code :=
  (listNodes exprs).flatMap (acts manner)

@[simp] theorem list_acts_nil (manner : Manner) : listActs manner [] = [] := rfl

@[simp] theorem list_acts_cons (manner : Manner) (expr : Expr) (rest : List Expr) :
    listActs manner (expr :: rest) = expr.nodes.flatMap (acts manner) ++ listActs manner rest := by
  simp [listActs, listNodes]

@[simp] theorem list_acts_append (manner : Manner) (first second : List Expr) :
    listActs manner (first ++ second) = listActs manner first ++ listActs manner second := by
  simp [listActs, list_nodes_eq]

theorem list_acts_flat_map {α : Type} (manner : Manner) (list : List α) (exprs : α → List Expr) :
    listActs manner (list.flatMap exprs) =
      list.flatMap fun value => listActs manner (exprs value) := by
  induction list with
  | nil => rfl
  | cons value rest induction => simp [induction]

end Expr

namespace Stmt

/-- The expressions of a statement that have a part in its code. -/
def written (manner : Manner) : Stmt → List Expr
  | declare info decl =>
    if isPrunable manner info.span.start.offset decl then [] else decl.initializer.toList
  | perform _ value => [value].filter Expr.hasEffects
  | forLoop _ init condition afterthought _ _ =>
    (listExprs init).filter Expr.hasEffects ++ condition.toList ++
      (listExprs afterthought).filter Expr.hasEffects
  | stmt => stmt.exprs

theorem written_subset (manner : Manner) (stmt : Stmt) : stmt.written manner ⊆ stmt.exprs := by
  cases stmt with
  | declare info decl =>
      rw [written]
      split
      · exact List.nil_subset _
      · exact List.Subset.refl _
  | perform info value => exact List.filter_subset_self _
  | forLoop info init condition afterthought scope body =>
      exact ((List.filter_sublist.append (List.Sublist.refl _)).append List.filter_sublist).subset
  | _ => exact List.Subset.refl _

/-- The statements of a body that are not dead, wherever in it they stand. -/
def liveStatements (body : List Stmt) : List Stmt :=
  (listStatements body).filter (·.reach == .live)

end Stmt

section

variable {manner : Manner} {around : Surroundings}

@[simp] theorem acts_checkpoint : CodeStmt.acts (checkpointCode manner) = [] := by
  unfold checkpointCode
  split <;> rfl

@[simp] theorem acts_label (start : Nat) (name : String) (isLast : Bool) :
    CodeStmt.acts (labelCode manner start name isLast) = [] := by
  unfold labelCode
  split
  · rfl
  · rw [CodeStmt.acts_cons, acts_checkpoint]
    rfl

theorem acts_hoisted (scope : Nat) (stmt : Stmt) :
    CodeStmt.acts (hoistedCode manner scope stmt) = [] := by
  unfold hoistedCode
  split
  · split <;> rfl
  · rfl

@[simp] theorem acts_scope_start (scope : ScopeInfo) (body : List Stmt) :
    CodeStmt.acts (scopeStart manner scope body) = [] := by
  have hoisted : CodeStmt.acts (body.flatMap (hoistedCode manner scope.id)) = [] := by
    induction body with
    | nil => rfl
    | cons stmt rest induction => simp [acts_hoisted, induction]
  rw [scopeStart, CodeStmt.acts_append, hoisted]
  split <;> simp

theorem acts_dead {stmt : Stmt} (dead : stmt.reach ≠ .live) (inHandler : Bool) (scope : Nat)
    (isLast : Bool) : CodeStmt.acts (stmt.code manner inHandler scope isLast) = [] := by
  cases stmt with
  | label info name =>
      rw [Stmt.code]
      split <;> simp
  | empty info => rfl
  | broken span => exact absurd rfl dead
  | _ => simp [Stmt.code, isSkipped, dead]

theorem acts_condition_code {condition : Expr}
    (ready : ∀ node ∈ condition.nodes, node.Ready manner.library around) :
    (conditionCode manner condition).acts.Perm (condition.nodes.flatMap (Expr.acts manner)) := by
  rw [acts_condition]
  exact acts_code ready .elsewhere

theorem acts_clause {list : Option ExprList}
    (ready : ∀ expr ∈ Stmt.listExprs list, ∀ node ∈ expr.nodes, node.Ready manner.library around) :
    ((clauseCode manner list).flatMap Code.acts).Perm
      (Expr.listActs manner ((Stmt.listExprs list).filter Expr.hasEffects)) := by
  cases list with
  | none => exact .refl _
  | some list =>
      rw [Expr.listActs, Expr.list_nodes_eq, List.flatMap_assoc]
      exact acts_codes fun expr member =>
        acts_code (ready expr (List.mem_of_mem_filter member)) .element

def partActs (manner : Manner) (inHandler : Bool) (parts : List CodeScope) : List Code :=
  parts.flatMap fun part => CodeStmt.acts (Stmt.codes manner inHandler part.info.id part.body)

theorem acts_alternatives (inHandler : Bool) {rest : Alternatives}
    (ready : ∀ condition ∈ rest.conditions, ∀ node ∈ condition.nodes,
      node.Ready manner.library around) :
    ((rest.code manner inHandler).terms.filter Code.isAct).Perm
      (Expr.listActs manner rest.conditions ++ partActs manner inHandler rest.parts) := by
  match rest with
  | .done => exact .refl _
  | .otherwise _ inner body =>
      simp [Alternatives.code, CodeAlternatives.terms, Alternatives.conditions,
        Alternatives.parts, partActs]
  | .elseIf _ condition inner body rest =>
      have own := acts_condition_code (ready condition List.mem_cons_self)
      have others := acts_alternatives inHandler fun condition member =>
        ready condition (List.mem_cons_of_mem _ member)
      simp only [Alternatives.code, CodeAlternatives.terms, Alternatives.conditions,
        Alternatives.parts, partActs, List.filter_append, Code.filter_terms,
        CodeStmt.filter_list_terms, CodeStmt.acts_append, acts_scope_start, List.nil_append,
        Expr.list_acts_cons, List.flatMap_cons, List.append_assoc] at others ⊢
      refine own.append ?_
      exact (others.append_left _).trans (List.perm_append_comm_assoc _ _ _)

theorem acts_declaration {scope : Nat} {info : StmtInfo} {decl : Variable}
    (ready : ∀ value ∈ decl.initializer.toList, ∀ node ∈ value.nodes,
      node.Ready manner.library around) :
    (CodeStmt.acts (declarationCode manner scope info decl)).Perm
      (Expr.listActs manner ((Stmt.declare info decl).written manner)) := by
  unfold declarationCode
  rw [Stmt.written]
  split
  · exact .refl _
  · rw [CodeStmt.acts_single, CodeStmt.terms, Code.filter_terms, initialCode]
    cases given : decl.initializer with
    | none => exact .of_eq (Code.acts_plain _)
    | some value =>
        have own := acts_code (ready value (by simp [given])) .initializer
        simpa [acts_stored] using own

theorem acts_return (inHandler : Bool) {value : Option Expr}
    (ready : ∀ expr ∈ value.toList, ∀ node ∈ expr.nodes, node.Ready manner.library around) :
    (CodeStmt.acts (returnCode manner inHandler value)).Perm
      (Expr.listActs manner value.toList) := by
  cases value with
  | none => exact .refl _
  | some value =>
      have own := acts_code (ready value List.mem_cons_self) .elsewhere
      cases inHandler with
      | true => simpa [returnCode, CodeStmt.acts_cons, CodeStmt.terms, Code.optionTerms] using own
      | false => simpa [returnCode, CodeStmt.acts_cons, CodeStmt.terms, Code.optionTerms] using own

/-- A live statement does what its expressions do, apart from those that are left out, and what its
own scopes do. -/
theorem acts_statement {stmt : Stmt} (live : stmt.reach = .live)
    (ready : stmt.Ready manner.library around) (inHandler : Bool) (scope : Nat) (isLast : Bool) :
    (CodeStmt.acts (stmt.code manner inHandler scope isLast)).Perm
      (Expr.listActs manner (stmt.written manner) ++ partActs manner inHandler stmt.parts) := by
  have exprs := ready.exprs
  have kept : isSkipped manner stmt = false := by simp [isSkipped, live]
  cases stmt with
  | block inner body =>
      simp [Stmt.code, kept, CodeStmt.acts_single, CodeStmt.terms, Stmt.written, Stmt.exprs,
        Stmt.parts, partActs]
  | declare info decl =>
      simpa [Stmt.code, kept, Stmt.parts, partActs] using acts_declaration exprs
  | perform info value =>
      have own := acts_code (exprs value List.mem_cons_self) .statement
      rw [Stmt.code, kept, Stmt.written]
      cases some : value.hasEffects with
      | false => simp [some, Stmt.parts, partActs]
      | true => simpa [some, CodeStmt.acts_single, CodeStmt.terms, Stmt.parts, partActs] using own
  | giveBack info value =>
      simpa [Stmt.code, kept, Stmt.written, Stmt.exprs, Stmt.parts, partActs] using
        acts_return inHandler exprs
  | jump info label target =>
      rw [Stmt.code, kept]
      exact .refl _
  | label info name =>
      simp [Stmt.code, kept, Stmt.written, Stmt.exprs, Stmt.parts, partActs]
  | changeState info state target =>
      rw [Stmt.code, kept]
      exact .refl _
  | branch info first condition inner body rest =>
      have own := acts_condition_code (exprs condition List.mem_cons_self)
      have others := acts_alternatives inHandler fun condition member =>
        exprs condition (List.mem_cons_of_mem _ member)
      simp only [Stmt.code, kept, Bool.false_eq_true, if_false, CodeStmt.acts_single,
        CodeStmt.terms, Stmt.written, Stmt.exprs, Stmt.parts, partActs, List.filter_append,
        Code.filter_terms, CodeStmt.filter_list_terms, CodeStmt.acts_append, acts_scope_start,
        List.nil_append, Expr.list_acts_cons, List.flatMap_cons, List.append_assoc] at others ⊢
      refine own.append ?_
      exact (others.append_left _).trans (List.perm_append_comm_assoc _ _ _)
  | whileLoop info condition inner body =>
      have own := acts_condition_code (exprs condition List.mem_cons_self)
      simpa [Stmt.code, kept, CodeStmt.acts_single, CodeStmt.terms, Stmt.written, Stmt.exprs,
        Stmt.parts, partActs] using own.append_right _
  | doLoop info inner body condition =>
      have own := acts_condition_code (exprs condition List.mem_cons_self)
      simpa [Stmt.code, kept, CodeStmt.acts_single, CodeStmt.terms, Stmt.written, Stmt.exprs,
        Stmt.parts, partActs] using List.perm_append_comm.trans (own.append_right _)
  | forLoop info init condition afterthought inner body =>
      simp only [Stmt.exprs, List.forall_mem_append] at exprs
      obtain ⟨⟨first, tests⟩, again⟩ := exprs
      have tested : ((Code.optionTerms (condition.map (conditionCode manner))).filter
          Code.isAct).Perm (Expr.listActs manner condition.toList) := by
        cases condition with
        | none => exact .refl _
        | some condition =>
            simpa [Code.optionTerms] using acts_condition_code (tests condition List.mem_cons_self)
      have all := (((acts_clause first).append tested).append (acts_clause again)).append_right
        (CodeStmt.acts (Stmt.codes manner inHandler inner.id body))
      simpa [Stmt.code, kept, CodeStmt.acts_single, CodeStmt.terms, Stmt.written, Stmt.parts,
        partActs] using all
  | empty info => exact .refl _
  | broken span => cases ready.whole

end

namespace Stmt

theorem live_statements_of_live {stmt : Stmt} (live : stmt.reach = .live) (rest : List Stmt) :
    liveStatements (stmt :: rest) =
      stmt :: (stmt.parts.flatMap fun part => liveStatements part.body) ++ liveStatements rest := by
  simp [liveStatements, listStatements, statements_eq, List.filter_flatMap, live]

theorem live_statements_of_dead {stmt : Stmt}
    (dead : ∀ found ∈ stmt.statements, found.reach ≠ .live) (rest : List Stmt) :
    liveStatements (stmt :: rest) = liveStatements rest := by
  have none : stmt.statements.filter (·.reach == .live) = [] := by
    simpa [List.filter_eq_nil_iff] using dead
  simp [liveStatements, listStatements, none]

/-- The code of statements does what the live ones among them do, and those in them. -/
theorem acts_codes {manner : Manner} {around : Surroundings} (inHandler : Bool) {scope : Nat}
    {body : List Stmt}
    (settled : ∀ stmt ∈ listStatements body, stmt.reach ≠ .live →
      ∀ found ∈ stmt.statements, found.reach ≠ .live)
    (ready : ∀ stmt ∈ listStatements body, stmt.Ready manner.library around) :
    (CodeStmt.acts (codes manner inHandler scope body)).Perm
      (Expr.listActs manner ((liveStatements body).flatMap (written manner))) := by
  induction body using Stmt.list_induction generalizing scope with
  | nil => exact .refl _
  | cons stmt rest inner outer =>
      have own : stmt ∈ listStatements (stmt :: rest) := mem_list_statements_cons.mpr (.inl rfl)
      have others := @outer scope (fun found inside => settled found (mem_of_rest inside))
        fun found inside => ready found (mem_of_rest inside)
      rw [codes, CodeStmt.acts_append]
      by_cases live : stmt.reach = .live
      · have head := acts_statement live (ready stmt own) inHandler scope rest.isEmpty
        have parts : (partActs manner inHandler stmt.parts).Perm (Expr.listActs manner
            ((stmt.parts.flatMap fun part => liveStatements part.body).flatMap
              (written manner))) := by
          rw [List.flatMap_assoc, Expr.list_acts_flat_map]
          refine List.Perm.flatMap_left stmt.parts fun part member => inner part member ?_ ?_
          · exact fun found inside => settled found (mem_of_part member inside)
          · exact fun found inside => ready found (mem_of_part member inside)
        rw [live_statements_of_live live, List.flatMap_append, List.flatMap_cons,
          Expr.list_acts_append, Expr.list_acts_append]
        exact (head.trans (parts.append_left _)).append others
      · rw [acts_dead live, live_statements_of_dead (settled stmt own live)]
        exact others

end Stmt

namespace Expr

theorem no_effect {expr : Expr} (none : expr.hasEffects = false) :
    ∀ node ∈ expr.nodes, node.isEffect = false := by
  intro node inside
  by_contra effect
  have some := has_effects_iff.mpr ⟨node, inside, by simpa using effect⟩
  rw [none] at some
  cases some

/-- The nodes of expressions that are effects. -/
def effects (exprs : List Expr) : List Expr := (listNodes exprs).filter isEffect

theorem effects_cons (expr : Expr) (rest : List Expr) :
    effects (expr :: rest) = expr.nodes.filter isEffect ++ effects rest := by
  simp [effects, listNodes]

theorem effects_append (first second : List Expr) :
    effects (first ++ second) = effects first ++ effects second := by
  simp [effects, list_nodes_eq]

/-- Only expressions without effects are left out of a list. -/
theorem effects_filter (exprs : List Expr) : effects (exprs.filter hasEffects) = effects exprs := by
  induction exprs with
  | nil => rfl
  | cons expr rest induction =>
      rw [List.filter_cons]
      cases some : expr.hasEffects with
      | true => simp [effects_cons, induction]
      | false =>
          have none : expr.nodes.filter isEffect = [] := by
            rw [List.filter_eq_nil_iff]
            exact fun node inside => by simp [no_effect some node inside]
          simp [effects_cons, induction, none]

end Expr

theorem Stmt.effects_written (manner : Manner) (stmt : Stmt) :
    Expr.effects (stmt.written manner) = Expr.effects stmt.exprs := by
  cases stmt with
  | declare info decl =>
      rw [written, exprs]
      split
      · rename_i prunable
        have none : decl.initializer.toList.filter Expr.hasEffects = [] := by
          simp only [isPrunable, Bool.and_eq_true, Bool.not_eq_true',
            Option.any_eq_false] at prunable
          simpa [List.filter_eq_nil_iff] using prunable.2
        rw [← Expr.effects_filter decl.initializer.toList, none]
      · rfl
  | perform info value => exact Expr.effects_filter [value]
  | forLoop info init condition afterthought inner body =>
      simp [written, exprs, Expr.effects_append, Expr.effects_filter]
  | _ => rfl

/-- The statement is written without one of its expressions. -/
inductive Stmt.Omits (manner : Manner) : Stmt → Expr → Prop where
  | perform {info : StmtInfo} {value : Expr} {inHandler : Bool} {scope : Nat} {isLast : Bool}
      (missing : (Stmt.perform info value).code manner inHandler scope isLast = []) :
      Omits manner (.perform info value) value
  | declare {info : StmtInfo} {decl : Variable} {value : Expr} {inHandler : Bool} {scope : Nat}
      {isLast : Bool} (given : decl.initializer = some value)
      (missing : (Stmt.declare info decl).code manner inHandler scope isLast = []) :
      Omits manner (.declare info decl) value
  | member {info : StmtInfo} {init : Option ExprList} {condition : Option Expr}
      {afterthought : Option ExprList} {scope : ScopeInfo} {body : List Stmt} {list : ExprList}
      {expr : Expr} (clause : init = some list ∨ afterthought = some list)
      (given : expr ∈ list.members)
      (missing : expr.code manner .element ∉ clauseCode manner (some list)) :
      Omits manner (.forLoop info init condition afterthought scope body) expr

theorem Stmt.Omits.no_effect {manner : Manner} {stmt : Stmt} {expr : Expr}
    (omits : stmt.Omits manner expr) (live : stmt.reach = .live) :
    ∀ node ∈ expr.nodes, node.isEffect = false := by
  apply Expr.no_effect
  cases omits with
  | perform missing => simpa [Stmt.code, isSkipped, live] using missing
  | declare given missing =>
      simp only [Stmt.code, isSkipped, live, bne_self_eq_false, Bool.false_and, Bool.false_eq_true,
        if_false, declarationCode, ite_eq_left_iff, List.cons_ne_nil, imp_false,
        Bool.not_eq_true, Bool.not_eq_false] at missing
      simp only [isPrunable, Bool.and_eq_true, given, Option.any_some, Bool.not_eq_true'] at missing
      exact missing.2
  | member clause given missing =>
      by_contra some
      refine missing ?_
      rw [clauseCode, Expr.codes_eq]
      exact List.mem_map_of_mem (List.mem_filter.mpr ⟨given, by simpa using some⟩)

/-- The nodes of the expressions that live statements are written with. -/
def Stmt.writtenNodes (manner : Manner) (body : List Stmt) : List Expr :=
  Expr.listNodes ((liveStatements body).flatMap (written manner))

/-- The effects in the live statements of a body, in the order of the text. -/
def Stmt.effects (body : List Stmt) : List Expr :=
  Expr.effects ((liveStatements body).flatMap exprs)

/-- Code for a body. Its effects are those of the nodes in live statements, each once; so are its
operations, as far as the statements are written. What live statements are written without has no
effect. Of an operation the right operand is written in front of the left one. -/
structure Faithful (manner : Manner) (body : List Stmt) (codes : List CodeStmt) : Prop where
  effects : ((CodeStmt.listTerms codes).filter Code.isEffect).Perm
    ((Stmt.effects body).map (Expr.code manner .statement))
  spelled : ∀ node ∈ Stmt.effects body, ∀ access depth,
    (node.code manner .statement).fragments access <:+: CodeStmt.listFragments access depth codes
  omitted : ∀ stmt ∈ Stmt.liveStatements body, ∀ expr, stmt.Omits manner expr →
    ∀ node ∈ expr.nodes, node.isEffect = false
  operations : ((CodeStmt.listTerms codes).filter Code.isOperation).Perm
    ((Stmt.writtenNodes manner body).filterMap (Expr.operation? manner))
  ordered : ∀ info operator left right,
    .binary info operator left right ∈ Stmt.writtenNodes manner body →
      operator.isAssignment = false → ∀ access depth, ∃ opening between closing,
        .text opening :: (right.code manner operator.operandPlace).fragments access ++
            [.text between] ++ (left.code manner operator.operandPlace).fragments access ++
            [.text closing] <:+:
          CodeStmt.listFragments access depth codes

section

variable {manner : Manner} {around : Surroundings} {body : List Stmt}

theorem Stmt.list_effects_written (manner : Manner) (stmts : List Stmt) :
    Expr.effects (stmts.flatMap (Stmt.written manner)) =
      Expr.effects (stmts.flatMap Stmt.exprs) := by
  induction stmts with
  | nil => rfl
  | cons stmt rest induction =>
      simp only [List.flatMap_cons, Expr.effects_append, Stmt.effects_written, induction]

theorem faithful_body {inHandler : Bool} {scope : ScopeInfo}
    (settled : ∀ stmt ∈ Stmt.listStatements body, stmt.reach ≠ .live →
      ∀ found ∈ stmt.statements, found.reach ≠ .live)
    (ready : ∀ stmt ∈ Stmt.listStatements body, stmt.Ready manner.library around) :
    Faithful manner body (bodyCode manner inHandler scope body) := by
  have acts : ((CodeStmt.listTerms (bodyCode manner inHandler scope body)).filter Code.isAct).Perm
      ((Stmt.writtenNodes manner body).flatMap (Expr.acts manner)) := by
    rw [CodeStmt.filter_list_terms, bodyCode, CodeStmt.acts_append, acts_scope_start]
    exact Stmt.acts_codes inHandler settled ready
  have nodes : ∀ node ∈ Stmt.writtenNodes manner body, node.Ready manner.library around := by
    intro node member
    simp only [Stmt.writtenNodes, Expr.list_nodes_eq, List.mem_flatMap] at member
    obtain ⟨expr, ⟨stmt, live, written⟩, inside⟩ := member
    exact (ready stmt (List.mem_of_mem_filter live)).exprs expr
      (Stmt.written_subset manner stmt written) node inside
  have effects := acts.filter Code.isEffect
  have operations := acts.filter Code.isOperation
  rw [Expr.effects_of_nodes nodes,
    Code.filter_acts fun code is => by simp [Code.isAct, is]] at effects
  rw [Expr.operations_of_nodes nodes,
    Code.filter_acts fun code is => by simp [Code.isAct, is]] at operations
  have kept : Stmt.effects body = (Stmt.writtenNodes manner body).filter Expr.isEffect :=
    (Stmt.list_effects_written manner (Stmt.liveStatements body)).symm
  rw [← kept] at effects
  refine ⟨effects, ?_, ?_, operations, ?_⟩
  · intro node member access depth
    have emitted := effects.mem_iff.mpr (List.mem_map_of_mem member)
    exact CodeStmt.list_term_within access depth _ (List.mem_of_mem_filter emitted)
  · intro stmt member expr omits
    exact omits.no_effect (by simpa [Stmt.liveStatements] using (List.mem_filter.mp member).2)
  · intro info operator left right member plain access depth
    have combines := plain
    simp only [BinaryOperator.isAssignment, Bool.or_eq_false_iff, beq_eq_false_iff_ne] at combines
    have emitted : (Expr.binary info operator left right).code manner .statement ∈
        (CodeStmt.listTerms (bodyCode manner inHandler scope body)).filter Code.isOperation := by
      refine operations.mem_iff.mpr (List.mem_filterMap.mpr ⟨_, member, ?_⟩)
      simp [Expr.operation?, combines]
    have inside := CodeStmt.list_term_within access depth _ (List.mem_of_mem_filter emitted)
    rcases Expr.combined_code manner .statement plain info left right with
      ⟨symbol, form⟩ | ⟨operation, form⟩
    · rw [form] at inside
      exact ⟨_, _, _, inside⟩
    · rw [form] at inside
      exact ⟨_, _, _, inside⟩

end

theorem StateDecl.code_mem {state : StateDecl} {decl : HandlerDecl}
    (member : decl ∈ state.handlers) (manner : Manner) :
    decl.code manner state.name ∈ state.code manner := by
  obtain ⟨part, inside, found⟩ := List.mem_filterMap.mp member
  cases part with
  | handler handler =>
      cases found
      exact List.mem_filterMap.mpr ⟨_, inside, rfl⟩
  | broken span => cases found

theorem Script.state_code_mem {library : Library} {settings : Settings} {script : Script}
    {state : StateDecl} (inside : state ∈ script.allStates) {method : Method}
    (member : method ∈ state.code ⟨library, settings, script.uses⟩) :
    method ∈ (script.program library settings).methods := by
  simp only [Program.methods, Script.program, List.mem_append, List.mem_flatten]
  rcases List.mem_append.mp inside with inside | inside
  · have initial := Option.mem_toList.mp inside
    exact .inr (by simpa [Option.mem_def.mp initial] using member)
  · exact .inl (.inr ⟨_, List.mem_map_of_mem inside, member⟩)

/-- The functions of an accepted source that something refers to, and all its handlers, are written
with the effects of their live statements, each once and none besides, and with the operands of
every operation from right to left. -/
theorem accepted_code_faithful {library : Library} {source : String}
    (wellFormed : library.WellFormed) (accepted : Accepted library source) (settings : Settings) :
    let script := (checkSource library source).value
    let manner : Manner := ⟨library, settings, script.uses⟩
    let program := script.program library settings
    (∀ decl ∈ script.functions, Use.isUsed script.uses decl.start = true →
      decl.code manner ∈ program.methods ∧ Faithful manner decl.body (decl.code manner).body) ∧
    (∀ state ∈ script.allStates, ∀ decl ∈ state.handlers,
      decl.code manner state.name ∈ program.methods ∧
        Faithful manner decl.body (decl.code manner state.name).body) ∧
    ∀ method ∈ program.methods, ∀ date,
      CodeStmt.listFragments settings.access (settings.depth + 1) method.body <:+:
        program.fragments settings date := by
  intro script manner program
  have ready := accepted.ready wellFormed
  have settled : ∀ body ∈ script.bodies, ∀ stmt ∈ Stmt.listStatements body.body,
      stmt.reach ≠ .live → ∀ found ∈ stmt.statements, found.reach ≠ .live := by
    intro body inside stmt member dead found
    obtain ⟨targets, settled, _⟩ := (accepted.resolved inside).settled
    exact settled.of_dead member dead
  refine ⟨?_, ?_, fun method member date => Program.body_within settings member date⟩
  · intro decl member used
    refine ⟨?_, faithful_body (settled decl.ownScope ?_) (ready.functions decl member).body⟩
    · have kept : decl.code manner ∈ program.functions :=
        List.mem_map_of_mem (List.mem_filter.mpr ⟨member, used⟩)
      simp [Program.methods, kept]
    · exact List.mem_append_left _ (List.mem_map_of_mem member)
  · intro state inside decl member
    refine ⟨Script.state_code_mem inside (StateDecl.code_mem member manner), ?_⟩
    have handler := (ready.states state inside).handlers decl member
    refine faithful_body (settled decl.ownScope ?_) handler.body
    exact List.mem_append_right _
      (List.mem_flatMap.mpr ⟨state, inside, StateDecl.own_scope_mem member⟩)

/-- What stands behind a return is not written, nor are a declaration and a member of a list that
have no effect. -/
theorem small_script_faithful :
    let source := "integer n; integer next(integer k) \x7b n += k; return n++; n = 0; \x7d " ++
      "default \x7b state_entry() \x7b integer unused = 1; " ++
      "for (n = 0, n; n < 3; ++n) next(n) * next(2 - n); \x7d \x7d"
    Library.small.WellFormed ∧ Accepted .small source ∧
      (∃ decl ∈ (checkSource .small source).value.functions,
        (Stmt.effects decl.body).length = 2 ∧
          Faithful ⟨.small, {}, (checkSource .small source).value.uses⟩ decl.body
            (decl.code ⟨.small, {}, (checkSource .small source).value.uses⟩).body) ∧
      ∃ state ∈ (checkSource .small source).value.allStates, ∃ decl ∈ state.handlers,
        (Stmt.effects decl.body).length = 4 ∧
          Faithful ⟨.small, {}, (checkSource .small source).value.uses⟩ decl.body
            (decl.code ⟨.small, {}, (checkSource .small source).value.uses⟩ state.name).body := by
  intro source
  have wellFormed : Library.small.WellFormed := ⟨by decide +kernel, by decide +kernel⟩
  have spelled : source = String.ofList _ :=
    (congrArg (· ++ _) String.ofList_append.symm).trans String.ofList_append.symm
  have facts : Accepted .small source ∧
      (∃ decl ∈ (checkSource .small source).value.functions,
        Use.isUsed (checkSource .small source).value.uses decl.start = true ∧
          (Stmt.effects decl.body).length = 2) ∧
      ∃ state ∈ (checkSource .small source).value.allStates, ∃ decl ∈ state.handlers,
        (Stmt.effects decl.body).length = 4 := by
    simp only [Accepted, check_source_spelled spelled]
    decide +kernel
  obtain ⟨accepted, ⟨decl, member, used, count⟩, state, inside, handler, held, more⟩ := facts
  obtain ⟨functions, handlers, _⟩ := accepted_code_faithful wellFormed accepted {}
  exact ⟨wellFormed, accepted, ⟨decl, member, count, (functions decl member used).2⟩,
    state, inside, handler, held, more, (handlers state inside handler held).2⟩

end Lsl
