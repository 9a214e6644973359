import Lsl.Settings
import Lsl.Target.Text

/-!
A generated program: its globals, functions and event handlers, and the text around them. The
program is the same whether it becomes a class of its own or is wrapped in one by its host; only
the text around it and the way to its globals differ.
-/

set_option autoImplicit false

namespace Lsl

structure GlobalField where
  type : String
  name : String
  value : Code
deriving Inhabited

/-- Parameters are pairs of a type and a name. -/
structure Method where
  returns : String
  name : String
  parameters : List (String × String)
  body : List CodeStmt
deriving Inhabited

/-- The handlers of the default state are missing if the script has no such state. -/
structure Program where
  globals : List GlobalField
  functions : List Method
  states : List (List Method)
  defaultState : Option (List Method)
deriving Inhabited

/-- The methods in the order in which they are written. -/
def Program.methods (program : Program) : List Method :=
  program.functions ++ program.states.flatten ++ program.defaultState.getD []

def Program.operations (program : Program) : List Operation :=
  Operation.sorted
    (program.globals.flatMap (·.value.operations) ++
      program.methods.flatMap fun method => CodeStmt.listOperations method.body)

/-- A class of helpers that is part of every program. -/
def utilityLines : List String :=
  let text := ValueType.string.targetName false
  let rotation := ValueType.rotation.targetName false
  let vector := ValueType.vector.targetName false
  ["",
    "//============================",
    "//== Compiler Utility Class ==",
    "//============================",
    "private static class UTILITIES",
    "\x7b",
    "    public static void ForceStatement<T>(T val) \x7b\x7d",
    "",
    "    public static bool ToBool(" ++ text ++ " str)",
    "    \x7b",
    "        return str.Length != 0;",
    "    \x7d",
    "",
    "    public static " ++ rotation ++ " Negate(" ++ rotation ++ " rot)",
    "    \x7b",
    "        rot.x=(-rot.x);",
    "        rot.y=(-rot.y);",
    "        rot.z=(-rot.z);",
    "        rot.s=(-rot.s);",
    "        return rot;",
    "    \x7d",
    "    public static " ++ vector ++ " Negate(" ++ vector ++ " vec)",
    "    \x7b",
    "        vec.x=(-vec.x);",
    "        vec.y=(-vec.y);",
    "        vec.z=(-vec.z);",
    "        return vec;",
    "    \x7d",
    "\x7d"]

namespace Fragment

def gap (count : Nat) : Fragment := .text (String.ofList (List.replicate count '\n'))

/-- A line that is indented only if there is something on it. -/
def outlined (depth : Nat) (content : String) : List Fragment :=
  if Text.isBlankText content then [gap 1] else line depth content

def banner (depth : Nat) (title : String) : List Fragment :=
  let rule := "//" ++ String.ofList (List.replicate (title.length + 6) '=')
  line depth rule ++ line depth ("//== " ++ title ++ " ==") ++ line depth rule

end Fragment

open Fragment (line gap banner braced)

/-- Items with fragments between any two of them. -/
def separated (separator : List Fragment) : List (List Fragment) → List Fragment
  | [] => []
  | item :: rest => item ++ (if rest.isEmpty then [] else separator) ++ separated separator rest

namespace Method

def heading (method : Method) : String :=
  "public " ++ method.returns ++ " " ++ method.name ++ "(" ++
    ", ".intercalate (method.parameters.map fun (type, name) => type ++ " " ++ name) ++ ")"

def fragments (access : GlobalAccess) (depth : Nat) (method : Method) : List Fragment :=
  line depth method.heading ++
    braced depth (CodeStmt.listFragments access (depth + 1) method.body)

end Method

/-- The method that makes an operation. Its operands come as strings where they are keys. -/
def Operation.fragments (keysAreStrings : Bool) (depth : Nat) (operation : Operation) :
    List Fragment :=
  line depth ("private " ++ operation.returns.targetName keysAreStrings ++ " " ++
      operation.name ++ "(" ++ operation.right.targetName true ++ " right, " ++
      operation.left.targetName true ++ " left)") ++
    braced depth (line (depth + 1) ("return left" ++ operation.operator.symbol ++ "right;"))

namespace GlobalField

def declaration (marker : String) (depth : Nat) (global : GlobalField) : List Fragment :=
  line depth ("public " ++ global.type ++ " " ++ marker ++ global.name ++ ";")

def assignment (access : GlobalAccess) (marker : String) (depth : Nat) (global : GlobalField) :
    List Fragment :=
  .indent depth :: .text (marker ++ global.name ++ " = ") :: global.value.fragments access ++
    [.text ";\n"]

end GlobalField

namespace Settings

def depth (settings : Settings) : Nat :=
  if settings.wrapsInClass then (if settings.enclosingNamespace?.isSome then 2 else 1) else 0

def access (settings : Settings) : GlobalAccess :=
  if settings.wrapsInClass then .field else .container

def headerFragments (settings : Settings) (date : String) : List Fragment :=
  (if Text.isBlankText settings.header then [] else [.text (settings.header ++ "\n"), gap 1]) ++
    line 0 ("//Compiled by lslcc, Date: " ++ date) ++ [gap 1]

def importFragments (settings : Settings) : List Fragment :=
  if settings.imports.isEmpty then []
  else settings.imports.flatMap (fun name => line 0 ("using " ++ name ++ ";")) ++ [gap 1]

def namespaceFragments (settings : Settings) : List Fragment :=
  match settings.enclosingNamespace? with
  | some name => line 0 ("namespace " ++ name) ++ line 0 "\x7b"
  | none => []

/-- Everything in front of the first member of the class. -/
def classStart (settings : Settings) : List Fragment :=
  let outer := settings.depth - 1
  let bases := settings.inheritance
  settings.importFragments ++ settings.namespaceFragments ++
    line outer (settings.classAccess.modifier ++ "class " ++ settings.className ++
      if bases == "" then "" else " " ++ bases) ++
    line outer "\x7b" ++ [gap 1]

def classEnd (settings : Settings) : List Fragment :=
  line (settings.depth - 1) "\x7d" ++
    if settings.enclosingNamespace?.isSome then line 0 "\x7d" else []

end Settings

namespace Program

/-- Globals as fields of the class, set by its constructor. -/
def fieldFragments (program : Program) (settings : Settings) : List Fragment :=
  let depth := settings.depth
  program.globals.flatMap (GlobalField.declaration "GV_" depth) ++
    (if program.globals.isEmpty then [] else [gap 2]) ++
    line depth (settings.constructorAccess.modifier ++ settings.className ++
      settings.constructorSignature) ++
    braced depth
      (program.globals.flatMap (GlobalField.assignment .field "GV_" (depth + 1))) ++
    [gap 2]

/-- Globals in an object of their own. -/
def containerFragments (program : Program) (settings : Settings) : List Fragment :=
  let depth := settings.depth
  if program.globals.isEmpty then []
  else
    banner depth "Global Variable Container" ++
      line depth "private class GLOBALS" ++
      braced depth
        (program.globals.flatMap (GlobalField.declaration "V_" (depth + 1)) ++
          line (depth + 1) "public GLOBALS()" ++
          braced (depth + 1)
            (program.globals.flatMap (GlobalField.assignment .inside "this.V_" (depth + 2)))) ++
      [gap 2] ++ line depth "GLOBALS Globals = new GLOBALS();" ++ [gap 2]

def globalFragments (program : Program) (settings : Settings) : List Fragment :=
  if settings.wrapsInClass then program.fieldFragments settings
  else program.containerFragments settings

def functionFragments (program : Program) (settings : Settings) : List Fragment :=
  if program.functions.isEmpty then []
  else
    banner settings.depth "User Defined Functions" ++ [gap 2] ++
      program.functions.flatMap fun method =>
        method.fragments settings.access settings.depth ++ [gap 2]

def handlerFragments (settings : Settings) (handlers : List Method) : List Fragment :=
  separated [gap 1] (handlers.map (Method.fragments settings.access settings.depth))

def stateFragments (program : Program) (settings : Settings) : List Fragment :=
  (if program.states.isEmpty then []
    else
      [gap 1] ++ banner settings.depth "User Defined State Event Handlers" ++ [gap 2] ++
        program.states.flatMap fun handlers => handlerFragments settings handlers ++ [gap 2]) ++
    match program.defaultState with
    | none => [.fault "missing default state"]
    | some handlers =>
      [gap 1] ++ banner settings.depth "Default State Event Handlers" ++ [gap 2] ++
        handlerFragments settings handlers

def operationFragments (program : Program) (settings : Settings) : List Fragment :=
  let operations := program.operations
  if operations.isEmpty then []
  else
    [gap 2] ++ banner settings.depth "Binary Operator Stubs" ++ [gap 2] ++
      separated [gap 2]
        (operations.map (Operation.fragments settings.keysAreStrings settings.depth))

def fragments (program : Program) (settings : Settings) (date : String) : List Fragment :=
  settings.headerFragments date ++
    (if settings.wrapsInClass then settings.classStart else []) ++
    utilityLines.flatMap (Fragment.outlined settings.depth) ++ [gap 1] ++
    program.globalFragments settings ++ program.functionFragments settings ++
    program.stateFragments settings ++ program.operationFragments settings ++
    if settings.wrapsInClass then settings.classEnd else []

end Program

end Lsl
