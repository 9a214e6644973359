import Lsl.Target.Types

/-!
Generated code as a tree. What cannot be generated is a fault in the place where it would stand:
the code is written up to there.
-/

set_option autoImplicit false

namespace Lsl

/-- What is called in generated code. -/
inductive Callee where
  | script (name : String)
  | library (name : String)
  | module (invoker name : String)
  | utility (name : String)
deriving DecidableEq, Inhabited, Repr

/-- Expressions. Plain code is a name or a literal. -/
inductive Code where
  | plain (text : String)
  | fault (reason : String)
  | global (name : String)
  | create (type separator : String) (arguments : List Code)
  | invoke (callee : Callee) (arguments : List Code)
  | operate (operation : Operation) (right left : Code)
  | logical (symbol : String) (right left : Code)
  | assign (target value : Code)
  | roundedProduct (target factor : Code)
  | before (symbol : String) (operand : Code)
  | behind (operand : Code) (symbol : String)
  | convert (type : String) (operand : Code)
  | grouped (inner : Code)
  | component (target : Code) (name : String)
deriving Inhabited

mutual

/-- Statements. A label may carry an empty statement, and a checkpoint is a call that may end the
script. -/
inductive CodeStmt where
  | declare (type name : String) (value : Code)
  | perform (value : Code)
  | giveBack (value : Option Code)
  | jump (label : String)
  | label (name : String) (empty : Bool)
  | changeState (state : String)
  | checkpoint (call : String)
  | block (body : List CodeStmt)
  | branch (condition : Code) (body : List CodeStmt) (rest : CodeAlternatives)
  | whileLoop (condition : Code) (body : List CodeStmt)
  | doLoop (body : List CodeStmt) (condition : Code)
  | forLoop (init : List Code) (condition : Option Code) (afterthought : List Code)
    (body : List CodeStmt)
  | fault (reason : String)

inductive CodeAlternatives where
  | done
  | elseIf (condition : Code) (body : List CodeStmt) (rest : CodeAlternatives)
  | otherwise (body : List CodeStmt)

end

instance : Inhabited CodeStmt := ⟨.block []⟩

instance : Inhabited CodeAlternatives := ⟨.done⟩

mutual

/-- The operations that evaluating the code calls. -/
def Code.operations : Code → List Operation
  | .plain _ => []
  | .fault _ => []
  | .global _ => []
  | .create _ _ arguments => Code.listOperations arguments
  | .invoke _ arguments => Code.listOperations arguments
  | .operate operation right left => operation :: right.operations ++ left.operations
  | .logical _ right left => right.operations ++ left.operations
  | .assign target value => target.operations ++ value.operations
  | .roundedProduct target factor => target.operations ++ factor.operations
  | .before _ operand => operand.operations
  | .behind operand _ => operand.operations
  | .convert _ operand => operand.operations
  | .grouped inner => inner.operations
  | .component target _ => target.operations

def Code.listOperations : List Code → List Operation
  | [] => []
  | code :: rest => code.operations ++ Code.listOperations rest

end

def Code.optionOperations : Option Code → List Operation
  | some code => code.operations
  | none => []

mutual

def CodeStmt.operations : CodeStmt → List Operation
  | .declare _ _ value => value.operations
  | .perform value => value.operations
  | .giveBack value => Code.optionOperations value
  | .jump _ => []
  | .label _ _ => []
  | .changeState _ => []
  | .checkpoint _ => []
  | .block body => CodeStmt.listOperations body
  | .branch condition body rest =>
    condition.operations ++ CodeStmt.listOperations body ++ rest.operations
  | .whileLoop condition body => condition.operations ++ CodeStmt.listOperations body
  | .doLoop body condition => CodeStmt.listOperations body ++ condition.operations
  | .forLoop init condition afterthought body =>
    Code.listOperations init ++ Code.optionOperations condition ++
      Code.listOperations afterthought ++ CodeStmt.listOperations body
  | .fault _ => []

def CodeStmt.listOperations : List CodeStmt → List Operation
  | [] => []
  | stmt :: rest => stmt.operations ++ CodeStmt.listOperations rest

def CodeAlternatives.operations : CodeAlternatives → List Operation
  | .done => []
  | .elseIf condition body rest =>
    condition.operations ++ CodeStmt.listOperations body ++ rest.operations
  | .otherwise body => CodeStmt.listOperations body

end

end Lsl
