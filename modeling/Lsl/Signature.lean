import Lsl.Failure
import Lsl.Token.Lexeme
import Lsl.ValueType

/-!
What a script may call, handle or name: signatures of functions, events and constants. Parameters
are added one at a time, by calls that are made on the signature and may write to it before they
fail; that a refused one does not is for the theory to show.
-/

set_option autoImplicit false

namespace Lsl

/-- A letter or underscore, then letters, digits and underscores. -/
def isIdentifier (name : String) : Bool :=
  match name.toList with
  | first :: rest => Lexeme.isNameStart first && rest.all Lexeme.isNameChar
  | [] => false

def checkIdentifier (name : String) : Except Failure Unit :=
  if isIdentifier name then .ok () else .error (.invalidSymbolName name)

/-- A variadic parameter stands for any number of arguments; if its type is `void` they may have
any type. In a signature the index is the place, counted from zero. -/
structure Parameter where
  name : String
  type : ValueType
  variadic : Bool
  index : Nat
deriving DecidableEq, Inhabited, Repr

namespace Parameter

def text (parameter : Parameter) : String :=
  if parameter.variadic then
    (if parameter.type = .void then "any" else parameter.type.keyword) ++ "... " ++ parameter.name
  else parameter.type.keyword ++ " " ++ parameter.name

def listText (parameters : List Parameter) : String :=
  ", ".intercalate (parameters.map text)

/-- The parameters behind which one more was put. It gets the index of its place, whichever it came
with. -/
def placed (parameters : List Parameter) (parameter : Parameter) : List Parameter :=
  parameters ++ [{ parameter with index := parameters.length }]

end Parameter

/-- A call made on a draft. What it writes stays written when it fails. -/
abbrev Drafting (Draft Result : Type) := ExceptT Failure (StateM Draft) Result

/-- The draft after calls made one after another, whichever of them fail. -/
def Drafting.after {Draft : Type} (draft : Draft) (calls : List (Drafting Draft Unit)) : Draft :=
  calls.foldl (fun draft call => (call.run draft).2) draft

structure EventSignature where
  name : String
  parameters : List Parameter
deriving DecidableEq, Inhabited, Repr

namespace EventSignature

def ofName (name : String) : Except Failure EventSignature := do
  checkIdentifier name
  return ⟨name, []⟩

def add (parameter : Parameter) : Drafting EventSignature Unit := do
  checkIdentifier parameter.name
  let signature ← get
  if parameter.variadic then
    throw (.invalidSignature (.variadicInEvent signature.name parameter.name))
  if parameter.type = .void then
    throw (.invalidSignature (.voidParameter .event signature.name parameter.name))
  if signature.parameters.any (·.name = parameter.name) then
    throw (.invalidSignature (.repeatedParameter .event signature.name parameter.name))
  set { signature with parameters := Parameter.placed signature.parameters parameter }

def addParameter (signature : EventSignature) (parameter : Parameter) :
    Except Failure EventSignature :=
  match (add parameter).run signature with
  | (.ok _, extended) => .ok extended
  | (.error failure, _) => .error failure

def ofParameters (name : String) (parameters : List Parameter) :
    Except Failure EventSignature := do
  parameters.foldlM addParameter (← ofName name)

def types (signature : EventSignature) : List ValueType := signature.parameters.map (·.type)

def agrees (first second : EventSignature) : Bool :=
  first.name == second.name && first.types == second.types

def text (signature : EventSignature) : String :=
  signature.name ++ "(" ++ Parameter.listText signature.parameters ++ ")"

end EventSignature

/-- Only the last parameter of a function may be variadic. -/
structure FunctionSignature where
  name : String
  returns : ValueType
  parameters : List Parameter
deriving DecidableEq, Inhabited, Repr

namespace FunctionSignature

def ofName (returns : ValueType) (name : String) : Except Failure FunctionSignature := do
  checkIdentifier name
  return ⟨name, returns, []⟩

def isVariadic (signature : FunctionSignature) : Bool :=
  match signature.parameters.getLast? with
  | some parameter => parameter.variadic
  | none => false

def add (parameter : Parameter) : Drafting FunctionSignature Unit := do
  checkIdentifier parameter.name
  let signature ← get
  if signature.isVariadic then
    throw (.invalidSignature (.behindVariadic signature.name))
  if parameter.type = .void ∧ ¬ parameter.variadic then
    throw (.invalidSignature (.voidParameter .function signature.name parameter.name))
  if signature.parameters.any (·.name = parameter.name) then
    throw (.invalidSignature (.repeatedParameter .function signature.name parameter.name))
  set { signature with parameters := Parameter.placed signature.parameters parameter }

def addParameter (signature : FunctionSignature) (parameter : Parameter) :
    Except Failure FunctionSignature :=
  match (add parameter).run signature with
  | (.ok _, extended) => .ok extended
  | (.error failure, _) => .error failure

def ofParameters (returns : ValueType) (name : String) (parameters : List Parameter) :
    Except Failure FunctionSignature := do
  parameters.foldlM addParameter (← ofName returns name)

/-- How many parameters stand for one argument each. -/
def concreteCount (signature : FunctionSignature) : Nat :=
  if signature.isVariadic then signature.parameters.length - 1 else signature.parameters.length

def argumentFits (exact : Bool) (argument expected : ValueType) : Bool :=
  if exact then argument == expected else argument.convertsTo expected

/-- Arguments against parameters from left to right. A variadic parameter takes all arguments that
are left, each of a type it admits. -/
def argumentsFit (exact : Bool) : List Parameter → List ValueType → Bool
  | [], [] => true
  | [], _ :: _ => false
  | parameter :: rest, arguments =>
    if parameter.variadic then
      arguments.all fun argument =>
        argument != .void &&
          (parameter.type == .void || argumentFits exact argument parameter.type)
    else
      match arguments with
      | [] => false
      | argument :: others =>
        argumentFits exact argument parameter.type && argumentsFit exact rest others

def accepts (signature : FunctionSignature) (arguments : List ValueType) (exact : Bool) : Bool :=
  argumentsFit exact signature.parameters arguments

/-- Whether so many arguments may be passed. -/
def arityFits (signature : FunctionSignature) (count : Nat) : Bool :=
  if signature.isVariadic then signature.concreteCount ≤ count else count = signature.concreteCount

/-- Compares the argument at a place with the parameter it is for, which is looked up by its place.
There is no answer if there is no parameter at that place. -/
def fitsAt? (signature : FunctionSignature) (exact : Bool) (argument : ValueType) (place : Nat) :
    Option Bool :=
  if place < signature.concreteCount then do
    let parameter ← signature.parameters[place]?
    return argumentFits exact argument parameter.type
  else do
    let parameter ← signature.parameters[signature.concreteCount]?
    return argument != .void &&
      (parameter.type == .void || argumentFits exact argument parameter.type)

def allFit? (signature : FunctionSignature) (exact : Bool) (arguments : List ValueType)
    (place : Nat) : Option Bool :=
  (arguments.zipIdx place).allM fun (argument, place) => signature.fitsAt? exact argument place

def accepts? (signature : FunctionSignature) (arguments : List ValueType) (exact : Bool) :
    Option Bool :=
  if signature.arityFits arguments.length then signature.allFit? exact arguments 0 else some false

/-- The same function with the same parameter types in the same order, whatever it returns. -/
def agrees (first second : FunctionSignature) : Bool :=
  first.name == second.name &&
    first.parameters.map (fun parameter => (parameter.type, parameter.variadic)) ==
      second.parameters.map (fun parameter => (parameter.type, parameter.variadic))

def text (signature : FunctionSignature) : String :=
  (if signature.returns = .void then "" else signature.returns.keyword ++ " ") ++
    signature.name ++ "(" ++ Parameter.listText signature.parameters ++ ")"

end FunctionSignature

/-- What a signature gives to a hasher, piece by piece. -/
inductive Hashed where
  | name (text : String)
  | type (type : ValueType)
  | flag (raised : Bool)
deriving DecidableEq, Inhabited, Repr

def FunctionSignature.hashed (signature : FunctionSignature) : List Hashed :=
  .name signature.name ::
    signature.parameters.flatMap fun parameter => [.type parameter.type, .flag parameter.variadic]

def EventSignature.hashed (signature : EventSignature) : List Hashed :=
  .name signature.name :: signature.parameters.map fun parameter => .type parameter.type

/-- A named value, written as script text. -/
structure ConstantSignature where
  name : String
  type : ValueType
  value : String
deriving DecidableEq, Inhabited, Repr

namespace ConstantSignature

def ofValue (type : ValueType) (name value : String) : Except Failure ConstantSignature := do
  checkIdentifier name
  if type = .void then throw (.invalidSignature (.voidConstant name))
  return ⟨name, type, value⟩

def agrees (first second : ConstantSignature) : Bool := first.name == second.name

def text (signature : ConstantSignature) : String :=
  signature.type.keyword ++ " " ++ signature.name ++ " = " ++ signature.value ++ ";"

end ConstantSignature

end Lsl
