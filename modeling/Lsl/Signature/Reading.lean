import Lsl.Signature

/-!
Signatures read from text such as `integer llAbs(integer value);`. White space may stand between
the parts, and the semicolon may be left out.
-/

set_option autoImplicit false

namespace Lsl

namespace Signature

def notBlank (char : Char) : Bool := !Text.isBlank char

/-- The word of a name: it ends at white space and before a parenthesis. -/
def isHeadChar (char : Char) : Bool := notBlank char && char != '('

/-- The text in front of the last closing parenthesis, where only white space and one semicolon
may follow it. -/
def beforeClosing? (chars : List Char) : Option (List Char) :=
  let back := chars.reverse.dropWhile Text.isBlank
  let back := match back with
    | ';' :: rest => rest.dropWhile Text.isBlank
    | _ => back
  match back with
  | ')' :: rest => some rest.reverse
  | _ => none

def head? (chars : List Char) : Option (String × String) :=
  let name := chars.takeWhile isHeadChar
  match name, (chars.dropWhile isHeadChar).dropWhile Text.isBlank with
  | _ :: _, '(' :: rest =>
    match beforeClosing? rest with
    | some inner =>
      if inner.contains '\n' then none else some (String.ofList name, String.ofList inner)
    | none => none
  | _, _ => none

def typeWord? (chars : List Char) : Option (String × List Char) :=
  let word := chars.takeWhile Char.isAlpha
  match word, chars.dropWhile Char.isAlpha with
  | _ :: _, blank :: rest =>
    if Text.isBlank blank then
      some (String.ofList word, rest.dropWhile Text.isBlank)
    else none
  | _, _ => none

/-- A name alone on the rest of a text. -/
def lastWord? (chars : List Char) : Option String :=
  let name := chars.takeWhile notBlank
  if name.isEmpty || !(chars.dropWhile notBlank).all Text.isBlank then none
  else some (String.ofList name)

/-- Three dots between type and name make a parameter variadic. -/
def variadicName? : List Char → Option String
  | '.' :: '.' :: '.' :: blank :: rest =>
    if Text.isBlank blank then lastWord? (rest.dropWhile Text.isBlank) else none
  | _ => none

def parameterParts? (text : String) : Option (String × Bool × String) :=
  let chars := Text.trimLeft text.toList
  let word := chars.takeWhile Char.isAlpha
  let rest := chars.dropWhile Char.isAlpha
  let spaced := rest.dropWhile Text.isBlank
  if word.isEmpty then none
  else
    match variadicName? spaced with
    | some name => some (String.ofList word, true, name)
    | none =>
      if rest.head?.any Text.isBlank then
        (lastWord? spaced).map fun name => (String.ofList word, false, name)
      else none

def parameterOfText (text : String) (index : Nat) : Except Failure Parameter :=
  match parameterParts? text with
  | none => .error (.invalidSignature (.malformedParameter (Text.trim text)))
  | some (word, variadic, name) =>
    match ValueType.ofKeyword? word with
    | some type => .ok ⟨name, type, variadic, index⟩
    | none =>
      if (variadic && word == "any") || word == "void" then .ok ⟨name, .void, variadic, index⟩
      else .error (.invalidSignature (.unknownParameterType word))

def parametersOfText (text : String) : Except Failure (List Parameter) :=
  if Text.isBlankText text then .ok []
  else (Text.splitCommas text).zipIdx.mapM fun (part, index) => parameterOfText part index

/-- A return type, if one is written, then name and parameters. -/
def functionParts? (text : String) : Option (Option String × String × String) :=
  let chars := Text.trimLeft text.toList
  let typed : Option (Option String × String × String) :=
    match typeWord? chars with
    | some (word, rest) => (head? rest).map fun parts => (some word, parts)
    | none => none
  match typed with
  | some parts => some parts
  | none => (head? chars).map fun parts => (none, parts)

def returnTypeOfText : Option String → Except Failure ValueType
  | none => .ok .void
  | some word =>
    match ValueType.ofKeyword? word with
    | some type => .ok type
    | none => .error (.invalidSignature (.unknownReturnType word))

end Signature

def EventSignature.ofText (text : String) : Except Failure EventSignature :=
  match Signature.head? (Text.trimLeft text.toList) with
  | none => .error (.invalidSignature (.malformedSignature .event text))
  | some (name, inner) => do
    let parameters ← Signature.parametersOfText inner
    EventSignature.ofParameters name parameters

def FunctionSignature.ofText (text : String) : Except Failure FunctionSignature :=
  match Signature.functionParts? text with
  | none => .error (.invalidSignature (.malformedSignature .function text))
  | some (word, name, inner) => do
    let returns ← Signature.returnTypeOfText word
    let parameters ← Signature.parametersOfText inner
    FunctionSignature.ofParameters returns name parameters

end Lsl
