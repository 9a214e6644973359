import Lsl.Syntax.Stmt

/-!
The declarations of a script: global variables, functions, and states with their event handlers.
-/

set_option autoImplicit false

namespace Lsl

/-- A parameter of a function or handler of the script. -/
structure ParameterDecl where
  span : Span
  name : String
  type : ValueType
  faulty : Bool := false
deriving DecidableEq, Inhabited, Repr

structure ParameterList where
  span : Span
  members : List ParameterDecl
deriving DecidableEq, Inhabited, Repr

def ParameterList.hasErrors (list : ParameterList) : Bool := list.members.any (·.faulty)

/-- The parameters as a signature has them. -/
def ParameterList.signature (list : ParameterList) : List Parameter :=
  list.members.mapIdx fun index parameter => ⟨parameter.name, parameter.type, false, index⟩

structure GlobalDecl where
  span : Span
  decl : Variable
  faulty : Bool := false
deriving Inhabited

structure FunctionDecl where
  span : Span
  name : String
  returns : ValueType
  parameters : ParameterList
  scope : ScopeInfo
  body : List Stmt
  faulty : Bool := false
deriving Inhabited

structure HandlerDecl where
  span : Span
  name : String
  parameters : ParameterList
  scope : ScopeInfo
  body : List Stmt
  faulty : Bool := false
deriving Inhabited

/-- A handler, or what stands in the place of one that could not be read. -/
inductive StateMember where
  | handler (decl : HandlerDecl)
  | broken (span : Span)
deriving Inhabited

structure StateDecl where
  span : Span
  name : String
  isDefault : Bool
  members : List StateMember
  faulty : Bool := false
deriving Inhabited

/-- What a piece of text that could not be read was expected to be. -/
inductive BrokenContext where
  | globalDeclaration
  | state
  | handler
  | statement
deriving DecidableEq, Inhabited, Repr

structure BrokenPart where
  span : Span
  context : BrokenContext
deriving DecidableEq, Inhabited, Repr

/-- A declaration and a place that uses it, both by the offset they start at. -/
structure Use where
  declaration : Nat
  place : Nat
deriving DecidableEq, Inhabited, Repr

/-- The uses are those recorded by the validator, in the order in which it met them. -/
structure Script where
  span : Span
  globals : List GlobalDecl := []
  functions : List FunctionDecl := []
  defaultState : Option StateDecl := none
  states : List StateDecl := []
  broken : List BrokenPart := []
  uses : List Use := []
  faulty : Bool := false
deriving Inhabited

namespace GlobalDecl

def start (decl : GlobalDecl) : Nat := decl.span.start.offset

def hasErrors (global : GlobalDecl) : Bool := global.faulty || global.decl.hasErrors

end GlobalDecl

namespace ParameterDecl

def start (decl : ParameterDecl) : Nat := decl.span.start.offset

end ParameterDecl

namespace FunctionDecl

def start (decl : FunctionDecl) : Nat := decl.span.start.offset

def hasErrors (decl : FunctionDecl) : Bool :=
  decl.faulty || decl.parameters.hasErrors || Stmt.listHasErrors decl.body

def signature (decl : FunctionDecl) : Except Failure FunctionSignature :=
  FunctionSignature.ofParameters decl.returns decl.name decl.parameters.signature

end FunctionDecl

namespace HandlerDecl

def start (decl : HandlerDecl) : Nat := decl.span.start.offset

def hasErrors (decl : HandlerDecl) : Bool :=
  decl.faulty || decl.parameters.hasErrors || Stmt.listHasErrors decl.body

def signature (decl : HandlerDecl) : Except Failure EventSignature :=
  EventSignature.ofParameters decl.name decl.parameters.signature

end HandlerDecl

namespace StateMember

def hasErrors : StateMember → Bool
  | handler decl => decl.hasErrors
  | broken _ => true

end StateMember

namespace StateDecl

def start (decl : StateDecl) : Nat := decl.span.start.offset

def hasErrors (decl : StateDecl) : Bool := decl.faulty || decl.members.any StateMember.hasErrors

end StateDecl

namespace Script

/-- An error stands somewhere in the script. -/
def hasErrors (script : Script) : Bool :=
  script.faulty || script.globals.any GlobalDecl.hasErrors ||
    script.functions.any FunctionDecl.hasErrors || script.defaultState.any StateDecl.hasErrors ||
    script.states.any StateDecl.hasErrors || !script.broken.isEmpty

end Script

end Lsl
