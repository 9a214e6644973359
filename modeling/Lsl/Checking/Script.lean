import Lsl.Checking.Statement

/-!
Whole scripts. Functions and states are known everywhere, globals from their declaration on.
Checking gives the script back with everything resolved, and marks it as faulty exactly when an
error was reported.
-/

set_option autoImplicit false

namespace Lsl

def reportAt (span : Span) : Option Problem → Checked Bool
  | some problem => ⟨true, [⟨problem, span⟩]⟩
  | none => pure false

/-- Adds functions to those declared, the first of each name only. -/
def declareFunctions (library : Library) (declared : List FunctionHeader) :
    List FunctionDecl → Checked (List FunctionDecl × List FunctionHeader)
  | [] => pure ([], declared)
  | decl :: rest => do
    let problem? :=
      if library.hasFunction decl.name then some (Problem.libraryFunctionRedefined decl.name)
      else if declared.any (·.name == decl.name) then some (.repeatedFunction decl.name)
      else none
    let faulty ← reportAt decl.span problem?
    let declared := if faulty then declared else declared ++ [decl.header]
    let (rest, declared) ← declareFunctions library declared rest
    return ({ decl with faulty := decl.faulty || faulty } :: rest, declared)

/-- Adds a state to those declared, if it is the first of its name. -/
def declareState (declared : List (String × Nat)) (decl : StateDecl) :
    Checked (StateDecl × List (String × Nat)) := do
  let known := (declared.lookup decl.name).isSome
  let faulty ← reportAt decl.span (if known then some (.repeatedState decl.name) else none)
  let declared := if faulty then declared else declared ++ [(decl.name, decl.start)]
  return ({ decl with faulty := decl.faulty || faulty }, declared)

def declareStates (declared : List (String × Nat)) :
    List StateDecl → Checked (List StateDecl × List (String × Nat))
  | [] => pure ([], declared)
  | decl :: rest => do
    let (decl, declared) ← declareState declared decl
    let (rest, declared) ← declareStates declared rest
    return (decl :: rest, declared)

def checkGlobalInitializer (view : View) (type : ValueType) (name : String)
    (initializer : Expr) : Checked Expr := do
  let initializer ← checkInitializer view type initializer
  if initializer.isConstant then return initializer
  else initializer.blame (.initializerNotConstant name)

def checkGlobals (view : View) : List GlobalDecl → Checked (List GlobalDecl × List Visible)
  | [] => pure ([], view.globals)
  | global :: rest => do
    let name := global.decl.name
    let initializer ←
      checkOption (checkGlobalInitializer view global.decl.type name) global.decl.initializer
    let problem? :=
      if (view.library.constant? name).isSome then some (Problem.libraryConstantRedefined name)
      else if view.globals.any (·.name == name) then some (.repeatedVariable name)
      else none
    let faulty ← reportAt global.span problem?
    let known : Visible := ⟨name, global.decl.type, .global global.start⟩
    let view := if faulty then view else { view with globals := view.globals ++ [known] }
    let (rest, globals) ← checkGlobals view rest
    let decl := { global.decl with initializer }
    return ({ global with decl, faulty := global.faulty || faulty } :: rest, globals)

/-- Adds parameters to those declared, the first of each name only. -/
def declareParameters (library : Library) (declared : List Visible) :
    List ParameterDecl → Checked (List ParameterDecl × List Visible)
  | [] => pure ([], declared)
  | decl :: rest => do
    let problem? :=
      if (library.constant? decl.name).isSome then
        some (Problem.libraryConstantRedefined decl.name)
      else if declared.any (·.name == decl.name) then some (.repeatedParameter decl.name)
      else none
    let faulty ← reportAt decl.span problem?
    let known : Visible := ⟨decl.name, decl.type, .parameter decl.start⟩
    let declared := if faulty then declared else declared ++ [known]
    let (rest, declared) ← declareParameters library declared rest
    return ({ decl with faulty := decl.faulty || faulty } :: rest, declared)

/-- What every body of a script sees. -/
structure Outlook where
  view : View
  states : List (String × Nat)
deriving Inhabited

def checkBody (outlook : Outlook) (owner : Owner) (parameters : ParameterList)
    (scope : ScopeInfo) (body : List Stmt) : Checked (ParameterList × List Stmt) := do
  let labels ← declareLabels [] (Stmt.listLabels scope.id body)
  let (members, locals) ← declareParameters outlook.view.library [] parameters.members
  let view := { outlook.view with locals }
  let frame : Frame := ⟨view, outlook.states, labels, owner, [scope.id]⟩
  let body ← checkStmts frame body >>= closeScope
  let (body, regions) := settleBody body
  regions.forM (report · .deadCode)
  return ({ parameters with members }, body)

def checkFunction (outlook : Outlook) (decl : FunctionDecl) : Checked FunctionDecl := do
  let owner := Owner.function decl.name decl.returns
  let (parameters, body) ← checkBody outlook owner decl.parameters decl.scope decl.body
  let complete := decl.returns == .void || Stmt.anyReturns body
  let faulty ← reportAt decl.span (if complete then none else some (.missingReturn decl.name))
  return { decl with parameters, body, faulty := decl.faulty || faulty }

def handlerProblem? (library : Library) (decl : HandlerDecl) : Option Problem :=
  match library.event? decl.name with
  | none => some (.unknownEvent decl.name)
  | some event =>
    match decl.signature with
    | .ok given =>
      if given.agrees event.signature then none
      else some (.handlerMismatch given.text event.signature.text)
    | .error _ => some (.handlerMismatch decl.name event.signature.text)

def checkHandler (outlook : Outlook) (decl : HandlerDecl) : Checked HandlerDecl := do
  let faulty ← reportAt decl.span (handlerProblem? outlook.view.library decl)
  let (parameters, body) ←
    checkBody outlook (.handler decl.name) decl.parameters decl.scope decl.body
  return { decl with parameters, body, faulty := decl.faulty || faulty }

/-- Checks the handlers of a state. A second handler of one event is not looked into. -/
def checkMembers (outlook : Outlook) (state : String) (seen : List String) :
    List StateMember → Checked (List StateMember)
  | [] => pure []
  | .broken span :: rest => do
    return .broken span :: (← checkMembers outlook state seen rest)
  | .handler decl :: rest => do
    if seen.contains decl.name then
      report decl.span (.repeatedHandler decl.name state)
      let rest ← checkMembers outlook state seen rest
      return .handler { decl with faulty := true } :: rest
    else
      let decl ← checkHandler outlook decl
      let rest ← checkMembers outlook state (decl.name :: seen) rest
      return .handler decl :: rest

def checkState (outlook : Outlook) (decl : StateDecl) : Checked StateDecl := do
  if decl.members.isEmpty then
    report decl.span (.stateWithoutHandlers decl.name)
    return { decl with faulty := true }
  else return { decl with members := ← checkMembers outlook decl.name [] decl.members }

def checkEach {α : Type} (check : α → Checked α) : List α → Checked (List α)
  | [] => pure []
  | value :: rest => do
    let value ← check value
    let rest ← checkEach check rest
    return value :: rest

/-- The default state, whose absence is reported at the end of the script. -/
def checkDefaultState (outlook : Outlook) (span : Span) :
    Option StateDecl → Checked (Option StateDecl)
  | some decl => do return some (← checkState outlook decl)
  | none => do
    report (.point span.stop) .missingDefaultState
    return none

def checkDeclarations (library : Library) (script : Script) : Checked Script := do
  let (functions, headers) ← declareFunctions library [] script.functions
  let (defaultStates, table) ← declareStates [] script.defaultState.toList
  let (states, table) ← declareStates table script.states
  let view : View := { library, functions := headers }
  let forthcoming := script.globals.map (·.decl.name)
  let (globals, known) ← checkGlobals { view with forthcoming } script.globals
  let outlook : Outlook := ⟨{ view with globals := known }, table⟩
  let functions ← checkEach (checkFunction outlook) functions
  let defaultState ← checkDefaultState outlook script.span defaultStates.head?
  let states ← checkEach (checkState outlook) states
  return Script.recorded { script with globals, functions, defaultState, states }

def Script.concluded (script : Script) (reports : List Diagnostic) : Script :=
  { script with faulty := script.faulty || reports.any Diagnostic.isError }

end Lsl
