import Lsl.Failure
import Lsl.Target.Code

/-!
The text of generated code: a list of fragments, of which those before the first fault are written.
-/

set_option autoImplicit false

namespace Lsl

inductive Fragment where
  | text (text : String)
  | fault (reason : String)
deriving DecidableEq, Inhabited, Repr

namespace Fragment

/-- What is written before the first fault. -/
def written : List Fragment → List String
  | [] => []
  | .text content :: rest => content :: written rest
  | .fault _ :: _ => []

/-- The failure the first fault causes. -/
def failure? : List Fragment → Option Failure
  | [] => none
  | .text _ :: rest => failure? rest
  | .fault reason :: _ => some (.internal reason)

def indent (depth : Nat) : Fragment := .text (String.ofList (List.replicate depth '\t'))

def line (depth : Nat) (content : String) : List Fragment :=
  [indent depth, .text (content ++ "\n")]

/-- What stands between braces at a depth of indentation. -/
def braced (depth : Nat) (inner : List Fragment) : List Fragment :=
  line depth "\x7b" ++ inner ++ line depth "\x7d"

end Fragment

/-- How code reaches a global variable: as a field of its class, through the object that holds the
globals, or from inside that object. -/
inductive GlobalAccess where
  | field
  | container
  | inside
deriving DecidableEq, Inhabited, Repr

def GlobalAccess.path : GlobalAccess → String → String
  | field, name => "this.GV_" ++ name
  | container, name => "this.Globals.V_" ++ name
  | inside, name => "this.V_" ++ name

/-- A call up to its first argument. -/
def Callee.opening (callee : Callee) (hasArguments : Bool) : String :=
  match callee with
  | script name => "FN_" ++ name ++ "("
  | library name => "this." ++ name ++ "("
  | module invoker name =>
    "this." ++ invoker ++ "(\"" ++ name ++ "\"" ++ if hasArguments then ", " else ""
  | utility name => "UTILITIES." ++ name ++ "("

mutual

def Code.fragments (access : GlobalAccess) : Code → List Fragment
  | .plain text => [.text text]
  | .fault reason => [.fault reason]
  | .global name => [.text (access.path name)]
  | .create type separator arguments =>
    .text ("new " ++ type ++ "(") :: Code.joined access separator arguments ++ [.text ")"]
  | .invoke callee arguments =>
    .text (callee.opening !arguments.isEmpty) :: Code.joined access "," arguments ++ [.text ")"]
  | .operate operation right left =>
    .text (operation.name ++ "(") :: right.fragments access ++ [.text ","] ++
      left.fragments access ++ [.text ")"]
  | .logical symbol right left =>
    .text "((bool)(" :: right.fragments access ++ [.text (")) " ++ symbol ++ " ((bool)(")] ++
      left.fragments access ++ [.text "))"]
  | .assign target value =>
    target.fragments access ++ [.text " = "] ++ value.fragments access
  | .roundedProduct target factor =>
    .text ("new " ++ ValueType.integer.targetName false ++ "(System.Math.Round((double)") ::
      target.fragments access ++ [.text ") * "] ++ factor.fragments access ++ [.text ")"]
  | .before symbol operand => .text symbol :: operand.fragments access
  | .behind operand symbol => operand.fragments access ++ [.text symbol]
  | .convert type operand =>
    .text ("(" ++ type ++ ")(") :: operand.fragments access ++ [.text ")"]
  | .grouped inner => .text "(" :: inner.fragments access ++ [.text ")"]
  | .component target name => target.fragments access ++ [.text ("." ++ name)]

def Code.joined (access : GlobalAccess) (separator : String) : List Code → List Fragment
  | [] => []
  | code :: rest =>
    code.fragments access ++ (if rest.isEmpty then [] else [.text separator]) ++
      Code.joined access separator rest

end

def Code.optionFragments (access : GlobalAccess) : Option Code → List Fragment
  | some code => code.fragments access
  | none => []

mutual

def CodeStmt.fragments (access : GlobalAccess) (depth : Nat) : CodeStmt → List Fragment
  | .declare type name value =>
    .indent depth :: .text (type ++ " " ++ name ++ " = ") :: value.fragments access ++
      [.text ";\n"]
  | .perform value => .indent depth :: value.fragments access ++ [.text ";\n"]
  | .giveBack none => Fragment.line depth "return;"
  | .giveBack (some value) =>
    .indent depth :: .text "return " :: value.fragments access ++ [.text ";\n"]
  | .jump label => Fragment.line depth ("goto LSLLabel_" ++ label ++ ";")
  | .label name empty =>
    Fragment.line depth ("LSLLabel_" ++ name ++ ":" ++ if empty then " ;" else "")
  | .changeState state => Fragment.line depth ("this.state(\"" ++ state ++ "\");")
  | .checkpoint call => Fragment.line depth (call ++ ";")
  | .block body => Fragment.braced depth (CodeStmt.listFragments access (depth + 1) body)
  | .branch condition body rest =>
    .indent depth :: .text "if(" :: condition.fragments access ++ [.text ")\n"] ++
      Fragment.braced depth (CodeStmt.listFragments access (depth + 1) body) ++
      rest.fragments access depth
  | .whileLoop condition body =>
    .indent depth :: .text "while(" :: condition.fragments access ++ [.text ")\n"] ++
      Fragment.braced depth (CodeStmt.listFragments access (depth + 1) body)
  | .doLoop body condition =>
    Fragment.line depth "do" ++
      Fragment.braced depth (CodeStmt.listFragments access (depth + 1) body) ++
      .indent depth :: .text "while(" :: condition.fragments access ++ [.text ");\n"]
  | .forLoop init condition afterthought body =>
    .indent depth :: .text "for(" :: Code.joined access "," init ++ [.text ";"] ++
      Code.optionFragments access condition ++ [.text ";"] ++
      Code.joined access "," afterthought ++ [.text ")\n"] ++
      Fragment.braced depth (CodeStmt.listFragments access (depth + 1) body)
  | .fault reason => [.fault reason]

def CodeStmt.listFragments (access : GlobalAccess) (depth : Nat) :
    List CodeStmt → List Fragment
  | [] => []
  | stmt :: rest => stmt.fragments access depth ++ CodeStmt.listFragments access depth rest

def CodeAlternatives.fragments (access : GlobalAccess) (depth : Nat) :
    CodeAlternatives → List Fragment
  | .done => []
  | .elseIf condition body rest =>
    .indent depth :: .text "else if(" :: condition.fragments access ++ [.text ")\n"] ++
      Fragment.braced depth (CodeStmt.listFragments access (depth + 1) body) ++
      rest.fragments access depth
  | .otherwise body =>
    Fragment.line depth "else" ++
      Fragment.braced depth (CodeStmt.listFragments access (depth + 1) body)

end

end Lsl
