import Lsl.Signature

/-!
How a script is compiled: what surrounds the generated code, how keys are represented and where
co-operative scripts give other scripts their turn.
-/

set_option autoImplicit false

namespace Lsl

/-- Who may use a generated class or its constructor. -/
inductive Access where
  | everyone
  | assembly
  | family
  | nobody
  | unstated
deriving DecidableEq, Inhabited, Repr

namespace Access

def all : List Access := [everyone, assembly, family, nobody, unstated]

def name : Access → String
  | everyone => "public"
  | assembly => "internal"
  | family => "protected"
  | nobody => "private"
  | unstated => "default"

def ofName? : String → Option Access
  | "public" => some everyone
  | "internal" => some assembly
  | "protected" => some family
  | "private" => some nobody
  | "default" => some unstated
  | _ => none

def modifier : Access → String
  | unstated => ""
  | access => access.name ++ " "

end Access

structure Settings where
  /-- Wraps the code in a class whose constructor sets the globals. -/
  wrapsInClass : Bool := true
  keysAreStrings : Bool := false
  /-- Has functions, handlers, loops and labels call the function that ends a script. -/
  checksTermination : Bool := false
  terminationCall? : Option String := none
  header : String := ""
  className? : Option String := none
  enclosingNamespace? : Option String := none
  classAccess : Access := .everyone
  constructorSignature? : Option String := none
  constructorAccess : Access := .everyone
  bases : List String := []
  imports : List String := []
  expandedKeysAreStrings : Bool := false
  expandedElementsAreStrings : Bool := false
deriving DecidableEq, Inhabited, Repr

namespace Settings

def hosted : Settings := { wrapsInClass := false, checksTermination := true }

def className (settings : Settings) : String := settings.className?.getD "LSLScript"

def constructorSignature (settings : Settings) : String :=
  settings.constructorSignature?.getD "()"

def terminationCall (settings : Settings) : String :=
  settings.terminationCall?.getD "opensim_reserved_CheckForCoopTermination()"

/-- What a class derives from, behind a colon. -/
def inheritance (settings : Settings) : String :=
  if settings.bases.isEmpty then "" else ": " ++ ", ".intercalate settings.bases

/-- Names with a dot between any two of them. -/
def isQualifiedName (chars : List Char) : Bool :=
  (Text.splitAt (· == '.') chars).all fun part => isIdentifier (String.ofList part)

def isTypeArgumentChar (char : Char) : Bool :=
  Lexeme.isNameChar char || char == '.' || char == ',' || char == ' ' || char == '<' ||
    char == '>'

def areTypeArguments : List Char → Bool
  | [] => true
  | _ :: rest => rest.getLast? == some '>' && rest.dropLast.all isTypeArgumentChar

def isTypeName (chars : List Char) : Bool :=
  isQualifiedName (chars.takeWhile (· != '<')) && areTypeArguments (chars.dropWhile (· != '<'))

def isParenthesis (char : Char) : Bool := char == '(' || char == ')'

def behindParameters? : List Char → Option (List Char)
  | '(' :: rest =>
    match rest.dropWhile (!isParenthesis ·) with
    | ')' :: rest => some rest
    | _ => none
  | _ => none

def isConstructorCall (chars : List Char) : Bool :=
  match chars with
  | 'b' :: 'a' :: 's' :: 'e' :: rest => behindParameters? rest == some []
  | 't' :: 'h' :: 'i' :: 's' :: rest => behindParameters? rest == some []
  | _ => false

/-- Parameters, and behind a colon the constructor that is called first. -/
def isConstructorSignature (chars : List Char) : Bool :=
  match behindParameters? chars with
  | none => false
  | some [] => true
  | some rest =>
    match Text.trimLeft rest with
    | ':' :: call => isConstructorCall (Text.trimLeft call)
    | _ => false

/-- A qualified name and arguments, which cannot end the statement. -/
def isFunctionCall (chars : List Char) : Bool :=
  isQualifiedName (chars.takeWhile (· != '(')) &&
    match chars.dropWhile (· != '(') with
    | _ :: rest => rest.getLast? == some ')' && rest.dropLast.all (· != ';')
    | [] => false

def demand (setting noun : String) (admits : List Char → Bool) (text : String) :
    Except Failure Unit :=
  if admits text.toList then .ok ()
  else .error (.invalidSetting setting (Text.quote text ++ " is not a valid " ++ noun))

/-- Checks that every name given can stand in generated code. -/
def validate (settings : Settings) : Except Failure Unit := do
  settings.className?.toList.forM
    (demand "generated_class_name" "class name" fun chars => isIdentifier (String.ofList chars))
  settings.enclosingNamespace?.toList.forM
    (demand "generated_class_namespace" "namespace" isQualifiedName)
  settings.imports.forM (demand "generated_namespace_imports" "namespace" isQualifiedName)
  settings.bases.forM (demand "generated_inheritance_list" "type name" isTypeName)
  settings.constructorSignature?.toList.forM
    (demand "generated_constructor_signature" "constructor signature" isConstructorSignature)
  settings.terminationCall?.toList.forM
    (demand "coop_termination_function_call" "function call" isFunctionCall)

end Settings

end Lsl
