import Lsl.Proofs.Syntax.Bodies
import Mathlib.Data.List.Perm.Basic

/-!
What a script declares, and where it mentions what: variables and functions in expressions, labels in
jumps and states in state changes. The mentions that are bound are the uses of the script. If
declarations start at different places, and if mentions are bound to nothing but them, the uses of a
declaration are the mentions that are bound to it.
-/

set_option autoImplicit false

namespace Lsl

inductive ReferentKind where
  | global
  | inScope
  | parameter
  | function
  | label
  | state
deriving DecidableEq

/-- A declaration, known by its kind and by where it starts. -/
structure Referent where
  kind : ReferentKind
  start : Nat
deriving DecidableEq

/-- A place that names a declaration, with what it is bound to. -/
structure Mention where
  place : Nat
  referent : Option Referent
deriving DecidableEq

def Mention.use? (mention : Mention) : Option Use :=
  mention.referent.map fun referent => ⟨referent.start, mention.place⟩

def Binding.referent? : Binding → Option Referent
  | .global start => some ⟨.global, start⟩
  | .inScope start _ => some ⟨.inScope, start⟩
  | .parameter start => some ⟨.parameter, start⟩
  | .unresolved => none
  | .constant => none

def CallTarget.referent? : CallTarget → Option Referent
  | .script start => some ⟨.function, start⟩
  | .unresolved => none
  | .library _ => none

namespace Expr

/-- What a node itself mentions. -/
def mention? : Expr → Option Mention
  | reference info _ binding => some ⟨info.span.start.offset, binding.referent?⟩
  | call info _ _ _ target => some ⟨info.span.start.offset, target.referent?⟩
  | _ => none

def mentions (expr : Expr) : List Mention := expr.nodes.filterMap mention?

theorem mentions_eq (expr : Expr) :
    expr.mentions = expr.mention?.toList ++ expr.parts.flatMap mentions := by
  rw [mentions, nodes_eq, List.filterMap_cons, List.filterMap_flatMap]
  cases expr.mention? <;> rfl

/-- A node that mentions nothing itself mentions what its parts do. -/
theorem mentions_of_parts {expr : Expr} (parts : List Expr) (silent : expr.mention? = none)
    (made : expr.parts = parts) : expr.mentions = parts.flatMap mentions := by
  rw [mentions_eq, silent, made]
  rfl

section

variable (info : ExprInfo)

@[simp] theorem mentions_reference (name : String) (binding : Binding) :
    (reference info name binding).mentions = [⟨info.span.start.offset, binding.referent?⟩] := rfl

@[simp] theorem mentions_call (name : String) (inner : Span) (arguments : List Expr)
    (target : CallTarget) :
    (call info name inner arguments target).mentions =
      ⟨info.span.start.offset, target.referent?⟩ :: arguments.flatMap mentions :=
  mentions_eq _

@[simp] theorem mentions_vector (x y z : Expr) :
    (vector info x y z).mentions = x.mentions ++ y.mentions ++ z.mentions :=
  (mentions_of_parts [x, y, z] rfl rfl).trans (by simp)

@[simp] theorem mentions_rotation (x y z s : Expr) :
    (rotation info x y z s).mentions = x.mentions ++ y.mentions ++ z.mentions ++ s.mentions :=
  (mentions_of_parts [x, y, z, s] rfl rfl).trans (by simp)

@[simp] theorem mentions_list (inner : Span) (elements : List Expr) :
    (list info inner elements).mentions = elements.flatMap mentions :=
  mentions_eq _

@[simp] theorem mentions_binary (operator : BinaryOperator) (left right : Expr) :
    (binary info operator left right).mentions = left.mentions ++ right.mentions :=
  (mentions_of_parts [left, right] rfl rfl).trans (by simp)

@[simp] theorem mentions_prefixed (operator : PrefixOperator) (operand : Expr) :
    (prefixed info operator operand).mentions = operand.mentions :=
  (mentions_of_parts [operand] rfl rfl).trans (by simp)

@[simp] theorem mentions_postfixed (operator : PostfixOperator) (operand : Expr) :
    (postfixed info operator operand).mentions = operand.mentions :=
  (mentions_of_parts [operand] rfl rfl).trans (by simp)

@[simp] theorem mentions_cast (target : ValueType) (operand : Expr) :
    (cast info target operand).mentions = operand.mentions :=
  (mentions_of_parts [operand] rfl rfl).trans (by simp)

@[simp] theorem mentions_grouped (inner : Expr) :
    (grouped info inner).mentions = inner.mentions :=
  (mentions_of_parts [inner] rfl rfl).trans (by simp)

@[simp] theorem mentions_component (part : Component) (target : Expr) :
    (component info part target).mentions = target.mentions :=
  (mentions_of_parts [target] rfl rfl).trans (by simp)

end

theorem mentions_with_info {expr : Expr} {info : ExprInfo} (same : info.span = expr.span) :
    (expr.withInfo info).mentions = expr.mentions := by
  cases expr <;> simp_all [withInfo, Expr.span, Expr.info] <;> rfl

/-- The local variables an expression refers to are among what it mentions. -/
theorem mem_locals {expr : Expr} {start : Nat} :
    start ∈ expr.locals ↔ ∃ mention ∈ expr.mentions, mention.referent = some ⟨.inScope, start⟩ := by
  induction expr using parts_induction with
  | step expr induction =>
      have own : start ∈ expr.locals ↔
          (∃ mention ∈ expr.mention?, mention.referent = some ⟨.inScope, start⟩) ∨
            ∃ part ∈ expr.parts, start ∈ part.locals := by
        cases expr with
        | reference info name binding =>
            cases binding <;>
              simp [locals, mention?, parts, Binding.local?, Binding.referent?, eq_comm]
        | call info name inner arguments target =>
            cases target <;> simp [locals, list_locals_eq, mention?, parts, CallTarget.referent?]
        | _ => simp [locals, list_locals_eq, mention?, parts]
      rw [own, mentions_eq]
      simp only [List.mem_append, Option.mem_toList, List.mem_flatMap]
      constructor
      · rintro (⟨mention, member, bound⟩ | ⟨part, member, inside⟩)
        · exact ⟨mention, .inl member, bound⟩
        · obtain ⟨mention, found, bound⟩ := (induction part member).mp inside
          exact ⟨mention, .inr ⟨part, member, found⟩, bound⟩
      · rintro ⟨mention, member | ⟨part, member, found⟩, bound⟩
        · exact .inl ⟨mention, member, bound⟩
        · exact .inr ⟨part, member, (induction part member).mpr ⟨mention, found, bound⟩⟩

/-- The uses in an expression are what it mentions, as far as that is bound. -/
theorem uses_perm (expr : Expr) : expr.uses.Perm (expr.mentions.filterMap Mention.use?) := by
  induction expr using parts_induction with
  | step expr induction =>
      have parts : (expr.parts.flatMap uses).Perm
          ((expr.parts.flatMap mentions).filterMap Mention.use?) := by
        rw [List.filterMap_flatMap]
        exact .flatMap_left _ induction
      rw [mentions_eq, List.filterMap_append]
      refine .trans ?_ (.append_left _ parts)
      cases expr with
      | reference info name binding => cases binding <;> exact .refl _
      | call info name inner arguments target =>
          simp only [uses, Expr.parts, list_uses_eq]
          refine List.perm_append_comm.trans (.append_right _ ?_)
          cases target <;> exact .refl _
      | _ => simp [uses, Expr.parts, list_uses_eq, mention?]

theorem list_uses_perm (exprs : List Expr) :
    (listUses exprs).Perm ((exprs.flatMap mentions).filterMap Mention.use?) := by
  rw [list_uses_eq, List.filterMap_flatMap]
  exact .flatMap_left _ fun expr _ => expr.uses_perm

end Expr

theorem Alternatives.uses_perm (rest : Alternatives) :
    rest.uses.Perm (Expr.listUses rest.conditions ++
      rest.parts.flatMap fun part => Stmt.listUses part.body) := by
  match rest with
  | .done => exact .refl _
  | .elseIf _ condition _ body rest =>
      have others := rest.uses_perm
      rw [List.perm_iff_count] at others ⊢
      intro use
      have same := others use
      simp only [Alternatives.uses, Alternatives.conditions, Alternatives.parts, Expr.listUses,
        List.flatMap_cons, List.count_append] at same ⊢
      omega
  | .otherwise _ _ body => simp [Alternatives.uses, Alternatives.conditions, Alternatives.parts,
      Expr.listUses]

namespace Stmt

/-- The declaration that a statement makes. -/
def referent? : Stmt → Option Referent
  | declare info _ => some ⟨.inScope, info.span.start.offset⟩
  | label info _ => some ⟨.label, info.span.start.offset⟩
  | _ => none

/-- What a statement itself mentions, apart from its expressions. -/
def mention? : Stmt → Option Mention
  | jump info _ target =>
    some ⟨info.span.start.offset, target.map fun target => ⟨.label, target.label⟩⟩
  | changeState info _ target => some ⟨info.span.start.offset, target.map (⟨.state, ·⟩)⟩
  | _ => none

/-- What a statement mentions, apart from the statements in it. -/
def mentions (stmt : Stmt) : List Mention :=
  stmt.mention?.toList ++ stmt.exprs.flatMap Expr.mentions

theorem mem_locals {stmt : Stmt} {start : Nat} :
    start ∈ stmt.locals ↔ ∃ mention ∈ stmt.mentions, mention.referent = some ⟨.inScope, start⟩ := by
  have own : ∀ mention ∈ stmt.mention?, mention.referent ≠ some ⟨.inScope, start⟩ := by
    cases stmt with
    | jump info name target => cases target <;> simp [mention?]
    | changeState info name target => cases target <;> simp [mention?]
    | _ => simp [mention?]
  simp only [locals, mentions, List.mem_flatMap, List.mem_append, Option.mem_toList,
    Expr.mem_locals]
  constructor
  · rintro ⟨expr, member, mention, found, bound⟩
    exact ⟨mention, .inr ⟨expr, member, found⟩, bound⟩
  · rintro ⟨mention, member | ⟨expr, member, found⟩, bound⟩
    · exact absurd bound (own mention member)
    · exact ⟨expr, member, mention, found, bound⟩

theorem locals_used {stmt : Stmt} {start : Nat} (refers : start ∈ stmt.locals) :
    ∃ use ∈ stmt.uses, use.declaration = start := by
  obtain ⟨expr, member, inside⟩ := List.mem_flatMap.mp refers
  obtain ⟨mention, found, bound⟩ := Expr.mem_locals.mp inside
  have used : (⟨start, mention.place⟩ : Use) ∈ expr.uses :=
    expr.uses_perm.mem_iff.mpr
      (List.mem_filterMap.mpr ⟨mention, found, by simp [Mention.use?, bound]⟩)
  exact ⟨_, exprs_used stmt expr member used, rfl⟩

def listReferents (body : List Stmt) : List Referent := (listStatements body).filterMap referent?

def listMentions (body : List Stmt) : List Mention := (listStatements body).flatMap mentions

theorem list_referents_cons (stmt : Stmt) (rest : List Stmt) :
    listReferents (stmt :: rest) = stmt.referent?.toList ++
      (stmt.parts.flatMap fun part => listReferents part.body) ++ listReferents rest := by
  simp only [listReferents, listStatements, statements_eq, List.cons_append, List.filterMap_cons,
    List.filterMap_append, List.filterMap_flatMap]
  cases stmt.referent? <;> simp

theorem list_mentions_cons (stmt : Stmt) (rest : List Stmt) :
    listMentions (stmt :: rest) = stmt.mentions ++
      (stmt.parts.flatMap fun part => listMentions part.body) ++ listMentions rest := by
  simp [listMentions, listStatements, statements_eq, List.flatMap_assoc]

theorem list_exprs_uses (list : Option ExprList) :
    ExprList.optionUses list = Expr.listUses (listExprs list) := by
  cases list <;> rfl

theorem option_expr_uses (value : Option Expr) :
    Expr.optionUses value = Expr.listUses value.toList := by
  cases value <;> simp [Expr.optionUses, Expr.listUses]

theorem list_uses_append (front back : List Expr) :
    Expr.listUses (front ++ back) = Expr.listUses front ++ Expr.listUses back := by
  simp [Expr.list_uses_eq]

/-- A statement uses what it mentions itself, what its expressions use and what its scopes use. -/
theorem uses_perm (stmt : Stmt) :
    stmt.uses.Perm (stmt.mention?.toList.filterMap Mention.use? ++ Expr.listUses stmt.exprs ++
      stmt.parts.flatMap fun part => listUses part.body) := by
  cases stmt with
  | declare info decl => simp [uses, mention?, exprs, parts, option_expr_uses]
  | perform info value => simp [uses, mention?, exprs, parts, Expr.listUses]
  | giveBack info value => simp [uses, mention?, exprs, parts, option_expr_uses]
  | jump info name target => cases target <;> exact .refl _
  | changeState info name target => cases target <;> exact .refl _
  | branch info first condition scope body rest =>
      have others := rest.uses_perm
      rw [List.perm_iff_count] at others ⊢
      intro use
      have same := others use
      simp only [uses, mention?, exprs, parts, Expr.listUses, List.flatMap_cons, List.count_append,
        Option.toList_none, List.filterMap_nil, List.count_nil] at same ⊢
      omega
  | doLoop info scope body condition =>
      simpa [uses, mention?, exprs, parts, Expr.listUses] using List.perm_append_comm
  | forLoop info init condition afterthought scope body =>
      simp [uses, mention?, exprs, parts, list_exprs_uses, option_expr_uses, list_uses_append]
  | _ => simp [uses, mention?, exprs, parts, Expr.listUses]

theorem list_uses_perm (body : List Stmt) :
    (listUses body).Perm ((listMentions body).filterMap Mention.use?) := by
  induction body using Stmt.list_induction with
  | nil => exact .refl _
  | cons stmt rest inner outer =>
      have parts : (stmt.parts.flatMap fun part => listUses part.body).Perm
          ((stmt.parts.flatMap fun part => listMentions part.body).filterMap Mention.use?) := by
        rw [List.filterMap_flatMap]
        exact .flatMap_left _ inner
      have own : stmt.uses.Perm (stmt.mentions.filterMap Mention.use? ++
          (stmt.parts.flatMap fun part => listMentions part.body).filterMap Mention.use?) := by
        refine stmt.uses_perm.trans (.append ?_ parts)
        rw [mentions, List.filterMap_append]
        exact .append_left _ (Expr.list_uses_perm _)
      rw [listUses, list_mentions_cons, List.filterMap_append, List.filterMap_append]
      exact own.append outer

end Stmt

/-- The parameters and the body of a function or a handler. -/
structure Routine where
  parameters : ParameterList
  scope : CodeScope

def ParameterDecl.referent (decl : ParameterDecl) : Referent := ⟨.parameter, decl.start⟩

namespace Routine

def referents (routine : Routine) : List Referent :=
  routine.parameters.members.map ParameterDecl.referent ++ Stmt.listReferents routine.scope.body

def mentions (routine : Routine) : List Mention := Stmt.listMentions routine.scope.body

end Routine

def FunctionDecl.routine (decl : FunctionDecl) : Routine := ⟨decl.parameters, decl.ownScope⟩

def HandlerDecl.routine (decl : HandlerDecl) : Routine := ⟨decl.parameters, decl.ownScope⟩

def GlobalDecl.referent (decl : GlobalDecl) : Referent := ⟨.global, decl.start⟩

def FunctionDecl.referent (decl : FunctionDecl) : Referent := ⟨.function, decl.start⟩

def StateDecl.referent (decl : StateDecl) : Referent := ⟨.state, decl.start⟩

def GlobalDecl.mentions (decl : GlobalDecl) : List Mention :=
  decl.decl.initializer.toList.flatMap Expr.mentions

def StateDecl.routines (state : StateDecl) : List Routine := state.handlers.map HandlerDecl.routine

theorem StateDecl.uses_perm (state : StateDecl) :
    state.uses.Perm ((state.routines.flatMap Routine.mentions).filterMap Mention.use?) := by
  rw [StateDecl.uses, StateDecl.routines, handlers]
  induction state.members with
  | nil => exact .refl _
  | cons member members induction =>
      cases member with
      | handler decl =>
          simp only [List.flatMap_cons, List.filterMap_cons, StateMember.handler?, List.map_cons,
            List.filterMap_append]
          exact .append (Stmt.list_uses_perm _) induction
      | broken span => exact induction

namespace Script

/-- The functions and handlers of a script. -/
def routines (script : Script) : List Routine :=
  script.functions.map FunctionDecl.routine ++ script.allStates.flatMap StateDecl.routines

/-- What a script declares outside of functions and handlers. -/
def headers (script : Script) : List Referent :=
  script.globals.map GlobalDecl.referent ++ script.functions.map FunctionDecl.referent ++
    script.allStates.map StateDecl.referent

/-- All declarations of a script. -/
def referents (script : Script) : List Referent :=
  script.headers ++ script.routines.flatMap Routine.referents

/-- All that is mentioned in a script. -/
def mentions (script : Script) : List Mention :=
  script.globals.flatMap GlobalDecl.mentions ++ script.routines.flatMap Routine.mentions

theorem bound_uses_perm (script : Script) :
    script.boundUses.Perm (script.mentions.filterMap Mention.use?) := by
  have globals : (script.globals.flatMap fun decl => Expr.optionUses decl.decl.initializer).Perm
      ((script.globals.flatMap GlobalDecl.mentions).filterMap Mention.use?) := by
    rw [List.filterMap_flatMap]
    refine .flatMap_left _ fun decl _ => ?_
    rw [Stmt.option_expr_uses]
    exact Expr.list_uses_perm _
  have functions : (script.functions.flatMap fun decl => Stmt.listUses decl.body).Perm
      ((script.functions.flatMap fun decl => decl.routine.mentions).filterMap Mention.use?) := by
    rw [List.filterMap_flatMap]
    exact .flatMap_left _ fun decl _ => Stmt.list_uses_perm _
  have states : (script.allStates.flatMap StateDecl.uses).Perm
      ((script.allStates.flatMap fun state => state.routines.flatMap Routine.mentions).filterMap
        Mention.use?) := by
    rw [List.filterMap_flatMap]
    exact .flatMap_left _ fun state _ => state.uses_perm
  have whole := globals.append (functions.append states)
  rw [← List.filterMap_append, ← List.filterMap_append] at whole
  simpa only [boundUses, mentions, routines, allStates, List.flatMap_append, List.flatMap_map,
    List.flatMap_assoc, List.append_assoc] using whole

theorem places_perm {script : Script} (distinct : (script.referents.map (·.start)).Nodup)
    (closed : ∀ mention ∈ script.mentions, ∀ referent ∈ mention.referent,
      referent ∈ script.referents) {referent : Referent} (member : referent ∈ script.referents) :
    (Use.placesOf script.boundUses referent.start).Perm
      ((script.mentions.filter (·.referent = some referent)).map (·.place)) := by
  have told := (script.bound_uses_perm.filter (·.declaration = referent.start)).map (·.place)
  refine told.trans (.of_eq ?_)
  rw [List.filter_filterMap, List.map_filterMap, ← List.filterMap_eq_map, List.filterMap_filter]
  refine List.filterMap_congr fun mention inside => ?_
  cases bound : mention.referent with
  | none => simp [Mention.use?, bound]
  | some found =>
      -- What starts where the declaration does is the declaration.
      have same : found.start = referent.start ↔ found = referent :=
        ⟨List.inj_on_of_nodup_map distinct (closed mention inside found bound) member,
          congrArg Referent.start⟩
      by_cases equal : found = referent
      · simp [Mention.use?, bound, equal]
      · simp [Mention.use?, bound, same, equal]

end Script

end Lsl
