import Lsl.Syntax.Script

/-!
Where declarations are used: variables by references, functions by calls, labels by jumps and states
by state changes. The uses are read off what checking has bound, in the order in which it binds:
a call is bound after its arguments.
-/

set_option autoImplicit false

namespace Lsl

/-- The declaration a reference is bound to. -/
def Binding.declaration? : Binding → Option Nat
  | .global declaration => some declaration
  | .inScope declaration _ => some declaration
  | .parameter declaration => some declaration
  | .unresolved => none
  | .constant => none

/-- The function of the script that is called. -/
def CallTarget.declaration? : CallTarget → Option Nat
  | .script declaration => some declaration
  | .unresolved => none
  | .library _ => none

/-- The use a node makes of what it is bound to, if it is bound. -/
def Use.ofBound (span : Span) : Option Nat → List Use
  | some declaration => [⟨declaration, span.start.offset⟩]
  | none => []

mutual

def Expr.uses : Expr → List Use
  | .integer _ _ => []
  | .hex _ _ => []
  | .float _ _ => []
  | .string _ _ => []
  | .vector _ x y z => x.uses ++ y.uses ++ z.uses
  | .rotation _ x y z s => x.uses ++ y.uses ++ z.uses ++ s.uses
  | .list _ _ elements => Expr.listUses elements
  | .reference info _ binding => Use.ofBound info.span binding.declaration?
  | .call info _ _ arguments target =>
    Expr.listUses arguments ++ Use.ofBound info.span target.declaration?
  | .binary _ _ left right => left.uses ++ right.uses
  | .prefixed _ _ operand => operand.uses
  | .postfixed _ _ operand => operand.uses
  | .cast _ _ operand => operand.uses
  | .grouped _ inner => inner.uses
  | .component _ _ target => target.uses

def Expr.listUses : List Expr → List Use
  | [] => []
  | expr :: rest => expr.uses ++ Expr.listUses rest

end

def Expr.optionUses : Option Expr → List Use
  | some expr => expr.uses
  | none => []

def ExprList.optionUses : Option ExprList → List Use
  | some list => Expr.listUses list.members
  | none => []

mutual

def Stmt.uses : Stmt → List Use
  | .block _ body => Stmt.listUses body
  | .declare _ decl => Expr.optionUses decl.initializer
  | .perform _ value => value.uses
  | .giveBack _ value => Expr.optionUses value
  | .jump info _ target => Use.ofBound info.span (target.map (·.label))
  | .label _ _ => []
  | .changeState info _ target => Use.ofBound info.span target
  | .branch _ _ condition _ body rest => condition.uses ++ Stmt.listUses body ++ rest.uses
  | .whileLoop _ condition _ body => condition.uses ++ Stmt.listUses body
  | .doLoop _ _ body condition => Stmt.listUses body ++ condition.uses
  | .forLoop _ init condition afterthought _ body =>
    ExprList.optionUses init ++ Expr.optionUses condition ++
      ExprList.optionUses afterthought ++ Stmt.listUses body
  | .empty _ => []
  | .broken _ => []

def Stmt.listUses : List Stmt → List Use
  | [] => []
  | stmt :: rest => stmt.uses ++ Stmt.listUses rest

def Alternatives.uses : Alternatives → List Use
  | .done => []
  | .elseIf _ condition _ body rest => condition.uses ++ Stmt.listUses body ++ rest.uses
  | .otherwise _ _ body => Stmt.listUses body

end

def StateMember.uses : StateMember → List Use
  | .handler decl => Stmt.listUses decl.body
  | .broken _ => []

def StateDecl.uses (state : StateDecl) : List Use := state.members.flatMap StateMember.uses

def Script.boundUses (script : Script) : List Use :=
  script.globals.flatMap (fun decl => Expr.optionUses decl.decl.initializer) ++
    script.functions.flatMap (fun decl => Stmt.listUses decl.body) ++
    script.defaultState.toList.flatMap StateDecl.uses ++
    script.states.flatMap StateDecl.uses

/-- The script with all the uses in it recorded. -/
def Script.recorded (script : Script) : Script := { script with uses := script.boundUses }

namespace Use

/-- The places that use a declaration. -/
def placesOf (uses : List Use) (declaration : Nat) : List Nat :=
  (uses.filter (·.declaration = declaration)).map (·.place)

/-- Something uses the declaration. -/
def isUsed (uses : List Use) (declaration : Nat) : Bool :=
  uses.any (·.declaration = declaration)

end Use

end Lsl
