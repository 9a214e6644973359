import Lsl.Compilation
import Mathlib.Data.List.Basic

/-!
What surrounds generated code has no part in it. The code of a script depends on how keys are
represented and on where other scripts get their turn, and not on the class, the namespace, the
constructor, the imports or the header of the text it becomes.
-/

set_option autoImplicit false

namespace Lsl

/-- The settings without what surrounds the code. -/
def Settings.bare (settings : Settings) : Settings where
  keysAreStrings := settings.keysAreStrings
  checksTermination := settings.checksTermination
  terminationCall? := settings.terminationCall?
  expandedKeysAreStrings := settings.expandedKeysAreStrings
  expandedElementsAreStrings := settings.expandedElementsAreStrings

def Manner.bare (manner : Manner) : Manner := { manner with settings := manner.settings.bare }

variable (manner : Manner)

theorem reference_code_bare (name : String) (binding : Binding) :
    referenceCode manner.bare name binding = referenceCode manner name binding := by
  cases binding <;> rfl

mutual

theorem Expr.code_bare (place : Place) (expr : Expr) :
    expr.code manner.bare place = expr.code manner place := by
  match expr with
  | .integer _ _ | .hex _ _ | .float _ _ | .string _ _ => rfl
  | .vector _ x y z =>
      simp only [Expr.code, Expr.code_bare _ x, Expr.code_bare _ y, Expr.code_bare _ z]
  | .rotation _ x y z s =>
      simp only [Expr.code, Expr.code_bare _ x, Expr.code_bare _ y, Expr.code_bare _ z,
        Expr.code_bare _ s]
  | .list _ _ elements => simp only [Expr.code, Expr.codes_bare _ elements]
  | .reference _ name binding => exact reference_code_bare manner name binding
  | .call _ name _ arguments target =>
      rw [Expr.code, Expr.codes_bare _ arguments]
      rfl
  | .binary _ operator left right =>
      simp only [Expr.code, Expr.code_bare _ left, Expr.code_bare _ right]
      rfl
  | .prefixed _ operator operand => simp only [Expr.code, Expr.code_bare _ operand]
  | .postfixed _ operator operand => simp only [Expr.code, Expr.code_bare _ operand]
  | .cast _ target operand =>
      simp only [Expr.code, Expr.code_bare _ operand]
      rfl
  | .grouped _ inner => simp only [Expr.code, Expr.code_bare _ inner]
  | .component _ part target => simp only [Expr.code, Expr.code_bare _ target]

theorem Expr.codes_bare (place : Place) (exprs : List Expr) :
    Expr.codes manner.bare place exprs = Expr.codes manner place exprs := by
  match exprs with
  | [] => rfl
  | expr :: rest => rw [Expr.codes, Expr.codes, Expr.code_bare _ expr, Expr.codes_bare _ rest]

end

theorem condition_code_bare (condition : Expr) :
    conditionCode manner.bare condition = conditionCode manner condition := by
  simp only [conditionCode, Expr.code_bare]
  rfl

theorem initial_code_bare (decl : Variable) :
    initialCode manner.bare decl = initialCode manner decl := by
  unfold initialCode
  split
  · rw [Expr.code_bare]
    rfl
  · rfl

theorem declaration_code_bare (scope : Nat) (info : StmtInfo) (decl : Variable) :
    declarationCode manner.bare scope info decl = declarationCode manner scope info decl := by
  simp only [declarationCode, initial_code_bare]
  rfl

theorem scope_start_bare (scope : ScopeInfo) (body : List Stmt) :
    scopeStart manner.bare scope body = scopeStart manner scope body := by
  have hoisted : hoistedCode manner.bare scope.id = hoistedCode manner scope.id := by
    funext stmt
    cases stmt <;> rfl
  rw [scopeStart, scopeStart, hoisted]
  rfl

theorem return_code_bare (inHandler : Bool) (value : Option Expr) :
    returnCode manner.bare inHandler value = returnCode manner inHandler value := by
  cases value with
  | none => rfl
  | some value => simp only [returnCode, Expr.code_bare]

theorem clause_code_bare (list : Option ExprList) :
    clauseCode manner.bare list = clauseCode manner list := by
  cases list with
  | none => rfl
  | some list => exact Expr.codes_bare manner _ _

theorem is_skipped_bare (stmt : Stmt) : isSkipped manner.bare stmt = isSkipped manner stmt := rfl

mutual

theorem Stmt.code_bare (inHandler : Bool) (scope : Nat) (isLast : Bool) (stmt : Stmt) :
    stmt.code manner.bare inHandler scope isLast = stmt.code manner inHandler scope isLast := by
  match stmt with
  | .block inner body =>
      simp only [Stmt.code, is_skipped_bare, scope_start_bare, Stmt.codes_bare _ _ body]
  | .declare info decl => simp only [Stmt.code, is_skipped_bare, declaration_code_bare]
  | .perform info value => simp only [Stmt.code, is_skipped_bare, Expr.code_bare]
  | .giveBack info value => simp only [Stmt.code, is_skipped_bare, return_code_bare]
  | .jump info label target => rfl
  | .label info name => rfl
  | .changeState info state target => rfl
  | .branch info first condition inner body rest =>
      simp only [Stmt.code, is_skipped_bare, condition_code_bare, scope_start_bare,
        Stmt.codes_bare _ _ body, Alternatives.code_bare _ rest]
  | .whileLoop info condition inner body =>
      simp only [Stmt.code, is_skipped_bare, condition_code_bare, scope_start_bare,
        Stmt.codes_bare _ _ body]
  | .doLoop info inner body condition =>
      simp only [Stmt.code, is_skipped_bare, condition_code_bare, scope_start_bare,
        Stmt.codes_bare _ _ body]
  | .forLoop info init condition afterthought inner body =>
      have conditions : conditionCode manner.bare = conditionCode manner :=
        funext (condition_code_bare manner)
      simp only [Stmt.code, is_skipped_bare, clause_code_bare, conditions, scope_start_bare,
        Stmt.codes_bare _ _ body]
  | .empty _ => rfl
  | .broken _ => rfl

theorem Stmt.codes_bare (inHandler : Bool) (scope : Nat) (body : List Stmt) :
    Stmt.codes manner.bare inHandler scope body = Stmt.codes manner inHandler scope body := by
  match body with
  | [] => rfl
  | stmt :: rest =>
      rw [Stmt.codes, Stmt.codes, Stmt.code_bare _ _ _ stmt, Stmt.codes_bare _ _ rest]

theorem Alternatives.code_bare (inHandler : Bool) (rest : Alternatives) :
    rest.code manner.bare inHandler = rest.code manner inHandler := by
  match rest with
  | .done => rfl
  | .elseIf _ condition inner body rest =>
      simp only [Alternatives.code, condition_code_bare, scope_start_bare, Stmt.codes_bare _ _ body,
        Alternatives.code_bare _ rest]
  | .otherwise _ inner body =>
      simp only [Alternatives.code, scope_start_bare, Stmt.codes_bare _ _ body]

end

theorem body_code_bare (inHandler : Bool) (scope : ScopeInfo) (body : List Stmt) :
    bodyCode manner.bare inHandler scope body = bodyCode manner inHandler scope body := by
  rw [bodyCode, bodyCode, scope_start_bare, Stmt.codes_bare]

theorem GlobalDecl.code_bare (global : GlobalDecl) :
    global.code manner.bare = global.code manner := by
  simp only [GlobalDecl.code, initial_code_bare]
  rfl

theorem FunctionDecl.code_bare (decl : FunctionDecl) :
    decl.code manner.bare = decl.code manner := by
  simp only [FunctionDecl.code, body_code_bare]
  rfl

theorem HandlerDecl.code_bare (state : String) (decl : HandlerDecl) :
    decl.code manner.bare state = decl.code manner state := by
  simp only [HandlerDecl.code, body_code_bare]
  rfl

theorem StateDecl.code_bare (state : StateDecl) : state.code manner.bare = state.code manner := by
  refine List.filterMap_congr fun member _ => ?_
  cases member with
  | handler decl => exact congrArg some (decl.code_bare manner state.name)
  | broken span => rfl

/-- The program of a script does not depend on what surrounds its code. -/
theorem Script.program_bare (library : Library) (settings : Settings) (script : Script) :
    script.program library settings.bare = script.program library settings := by
  let manner : Manner := ⟨library, settings, script.uses⟩
  have globals : GlobalDecl.code ⟨library, settings.bare, script.uses⟩ = GlobalDecl.code manner :=
    funext (GlobalDecl.code_bare manner)
  have functions : FunctionDecl.code ⟨library, settings.bare, script.uses⟩ =
      FunctionDecl.code manner := funext (FunctionDecl.code_bare manner)
  have states : StateDecl.code ⟨library, settings.bare, script.uses⟩ = StateDecl.code manner :=
    funext (StateDecl.code_bare manner)
  simp only [Script.program, globals, functions, states, manner]

end Lsl
