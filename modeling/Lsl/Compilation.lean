import Lsl.Checking.Validator
import Lsl.Generation.Statement

/-!
From sources to generated code. Functions that nothing calls and globals that nothing reads have no
part in the program of a script.
-/

set_option autoImplicit false

namespace Lsl

def ParameterList.code (manner : Manner) (list : ParameterList) : List (String × String) :=
  list.members.map fun decl => (variableTypeName manner decl.type, parameterName decl.name)

def GlobalDecl.code (manner : Manner) (global : GlobalDecl) : GlobalField where
  type := variableTypeName manner global.decl.type
  name := global.decl.name
  value := initialCode manner global.decl

def FunctionDecl.code (manner : Manner) (decl : FunctionDecl) : Method where
  returns := variableTypeName manner decl.returns
  name := "FN_" ++ decl.name
  parameters := decl.parameters.code manner
  body := bodyCode manner false decl.scope decl.body

def HandlerDecl.code (manner : Manner) (state : String) (decl : HandlerDecl) : Method where
  returns := ValueType.void.targetName false
  name := state ++ "_event_" ++ decl.name
  parameters := decl.parameters.code manner
  body := bodyCode manner true decl.scope decl.body

def StateMember.code (manner : Manner) (state : String) : StateMember → Option Method
  | .handler decl => some (decl.code manner state)
  | .broken _ => none

def StateDecl.code (manner : Manner) (state : StateDecl) : List Method :=
  state.members.filterMap (StateMember.code manner state.name)

def Script.program (library : Library) (settings : Settings) (script : Script) : Program :=
  let uses := script.uses
  let manner : Manner := ⟨library, settings, uses⟩
  { globals := (script.globals.filter (Use.isUsed uses ·.start)).map (GlobalDecl.code manner)
    functions :=
      (script.functions.filter (Use.isUsed uses ·.start)).map (FunctionDecl.code manner)
    states := script.states.map (StateDecl.code manner)
    defaultState := script.defaultState.map (StateDecl.code manner) }

/-- What compiling wrote, and what stopped it if it did not come to its end. -/
structure Output where
  text : String := ""
  failure : Option Failure := none
deriving DecidableEq, Inhabited, Repr

namespace Output

def ofFailure (failure : Failure) : Output := { failure := some failure }

def ofFragments (fragments : List Fragment) : Output where
  text := String.join (Fragment.written fragments)
  failure := Fragment.failure? fragments

end Output

/-- What every compilation asks for before it writes anything. -/
def checkRequest (settings : Settings) (hasErrors : Bool) : Except Failure Unit := do
  if hasErrors then throw (.invalidArgument "cannot generate code for a tree with errors")
  settings.validate

/-- The code of a checked script, with the date on which it was generated. -/
def compile (library : Library) (settings : Settings) (date : String) (script : Script) :
    Output :=
  match checkRequest settings script.hasErrors with
  | .error failure => .ofFailure failure
  | .ok () => .ofFragments ((script.program library settings).fragments settings date)

/-- An expression by itself has no program. -/
def compileExpression (settings : Settings) (expr : Expr) : Output :=
  match checkRequest settings expr.hasErrors with
  | .error failure => .ofFailure failure
  | .ok () => .ofFailure (.invalidArgument "tree is not a compilation unit")

/-- Checks a source and generates its code if there was no error. -/
def compileSource (library : Library) (settings : Settings) (date source : String) :
    Checked Script × Output :=
  let checked := checkSource library source
  if checked.value.hasErrors then (checked, {})
  else (checked, compile library settings date checked.value)

end Lsl
