import Lsl.Generation.Expression
import Lsl.Target.Program

/-!
Code for statements. What cannot be reached and what would do nothing is left out. Declarations
that a forward jump skips move to the top of their scope, where the code behind the label can see
them.
-/

set_option autoImplicit false

namespace Lsl

/-- A variable nothing reads, whose first value does nothing either. -/
def isPrunable (manner : Manner) (start : Nat) (decl : Variable) : Bool :=
  !Use.isUsed manner.uses start && !decl.initializer.any Expr.hasEffects

def initialCode (manner : Manner) (decl : Variable) : Code :=
  match decl.initializer with
  | some value => storedCode manner decl.type value (value.code manner .initializer)
  | none => .plain decl.type.defaultValue

def variableTypeName (manner : Manner) (type : ValueType) : String :=
  type.targetName manner.settings.keysAreStrings

def declarationCode (manner : Manner) (scope : Nat) (info : StmtInfo) (decl : Variable) :
    List CodeStmt :=
  if isPrunable manner info.span.start.offset decl then []
  else
    [.declare (variableTypeName manner decl.type) (localName scope decl.name)
      (initialCode manner decl)]

/-- The declaration at the top of a scope of a variable that a jump skips. -/
def hoistedCode (manner : Manner) (scope : Nat) : Stmt → List CodeStmt
  | .declare info decl =>
    if info.reach = .jumpedOver ∧ ¬ isPrunable manner info.span.start.offset decl then
      [.declare (variableTypeName manner decl.type) (localName scope decl.name)
        (.plain decl.type.defaultValue)]
    else []
  | _ => []

def checkpointCode (manner : Manner) : List CodeStmt :=
  if manner.settings.checksTermination then [.checkpoint manner.settings.terminationCall] else []

def scopeStart (manner : Manner) (scope : ScopeInfo) (body : List Stmt) : List CodeStmt :=
  body.flatMap (hoistedCode manner scope.id) ++
    if scope.role.isCheckpoint then checkpointCode manner else []

/-- A return. Handlers give nothing back, but the value is computed all the same. -/
def returnCode (manner : Manner) (inHandler : Bool) (value : Option Expr) : List CodeStmt :=
  match value with
  | none => [.giveBack none]
  | some value =>
    let code := value.code manner .elsewhere
    if inHandler then [.perform (.invoke (.utility "ForceStatement") [code]), .giveBack none]
    else [.giveBack (some code)]

/-- A label that is jumped to. It labels the checkpoint behind it, the next statement, or an empty
statement if it is the last of its scope. -/
def labelCode (manner : Manner) (start : Nat) (name : String) (isLast : Bool) :
    List CodeStmt :=
  if !Use.isUsed manner.uses start then []
  else .label name (isLast && !manner.settings.checksTermination) :: checkpointCode manner

def clauseCode (manner : Manner) : Option ExprList → List Code
  | some list => Expr.codes manner .element (list.members.filter Expr.hasEffects)
  | none => []

/-- The statement is left out because it cannot be reached. -/
def isSkipped (manner : Manner) (stmt : Stmt) : Bool :=
  stmt.reach != .live &&
    match stmt with
    | .label info _ => !Use.isUsed manner.uses info.span.start.offset
    | _ => true

mutual

def Stmt.code (manner : Manner) (inHandler : Bool) (scope : Nat) (isLast : Bool) :
    Stmt → List CodeStmt
  | .block inner body =>
    if isSkipped manner (.block inner body) then []
    else
      [.block (scopeStart manner inner body ++ Stmt.codes manner inHandler inner.id body)]
  | .declare info decl =>
    if isSkipped manner (.declare info decl) then []
    else declarationCode manner scope info decl
  | .perform info value =>
    if isSkipped manner (.perform info value) || !value.hasEffects then []
    else [.perform (value.code manner .statement)]
  | .giveBack info value =>
    if isSkipped manner (.giveBack info value) then [] else returnCode manner inHandler value
  | .jump info label target =>
    if isSkipped manner (.jump info label target) then [] else [.jump label]
  | .label info name =>
    if isSkipped manner (.label info name) then []
    else labelCode manner info.span.start.offset name isLast
  | .changeState info state target =>
    if isSkipped manner (.changeState info state target) then [] else [.changeState state]
  | .branch info first condition inner body rest =>
    if isSkipped manner (.branch info first condition inner body rest) then []
    else
      [.branch (conditionCode manner condition)
        (scopeStart manner inner body ++ Stmt.codes manner inHandler inner.id body)
        (rest.code manner inHandler)]
  | .whileLoop info condition inner body =>
    if isSkipped manner (.whileLoop info condition inner body) then []
    else
      [.whileLoop (conditionCode manner condition)
        (scopeStart manner inner body ++ Stmt.codes manner inHandler inner.id body)]
  | .doLoop info inner body condition =>
    if isSkipped manner (.doLoop info inner body condition) then []
    else
      [.doLoop (scopeStart manner inner body ++ Stmt.codes manner inHandler inner.id body)
        (conditionCode manner condition)]
  | .forLoop info init condition afterthought inner body =>
    if isSkipped manner (.forLoop info init condition afterthought inner body) then []
    else
      [.forLoop (clauseCode manner init) (condition.map (conditionCode manner))
        (clauseCode manner afterthought)
        (scopeStart manner inner body ++ Stmt.codes manner inHandler inner.id body)]
  | .empty _ => []
  | .broken _ => [.fault "a broken statement has no code"]

def Stmt.codes (manner : Manner) (inHandler : Bool) (scope : Nat) : List Stmt → List CodeStmt
  | [] => []
  | stmt :: rest =>
    stmt.code manner inHandler scope rest.isEmpty ++ Stmt.codes manner inHandler scope rest

def Alternatives.code (manner : Manner) (inHandler : Bool) : Alternatives → CodeAlternatives
  | .done => .done
  | .elseIf _ condition inner body rest =>
    .elseIf (conditionCode manner condition)
      (scopeStart manner inner body ++ Stmt.codes manner inHandler inner.id body)
      (rest.code manner inHandler)
  | .otherwise _ inner body =>
    .otherwise (scopeStart manner inner body ++ Stmt.codes manner inHandler inner.id body)

end

def bodyCode (manner : Manner) (inHandler : Bool) (scope : ScopeInfo) (body : List Stmt) :
    List CodeStmt :=
  scopeStart manner scope body ++ Stmt.codes manner inHandler scope.id body

end Lsl
