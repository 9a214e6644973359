import Lsl.Library.Metadata

/-!
The functions, events and constants a script may use without declaring them. A library keeps only
entries published under one of its active subsets.
-/

set_option autoImplicit false

namespace Lsl

structure LibraryFunction where
  signature : FunctionSignature
  metadata : Metadata
deriving DecidableEq, Inhabited, Repr

structure LibraryEvent where
  signature : EventSignature
  metadata : Metadata
deriving DecidableEq, Inhabited, Repr

structure LibraryConstant where
  signature : ConstantSignature
  metadata : Metadata
deriving DecidableEq, Inhabited, Repr

namespace LibraryFunction

def name (function : LibraryFunction) : String := function.signature.name

def description (function : LibraryFunction) : String :=
  function.metadata.annotate function.signature.text

end LibraryFunction

namespace LibraryEvent

def name (event : LibraryEvent) : String := event.signature.name

def description (event : LibraryEvent) : String :=
  event.metadata.annotate event.signature.text

end LibraryEvent

namespace LibraryConstant

def name (constant : LibraryConstant) : String := constant.signature.name

def description (constant : LibraryConstant) : String :=
  constant.metadata.annotate constant.signature.text

/-- The value as a script would write it. Texts are stored escaped, so they are only quoted. -/
def literal (constant : LibraryConstant) : String :=
  let value := constant.signature.value
  match constant.signature.type with
  | .string => "\"" ++ value ++ "\""
  | .key => "\"" ++ value ++ "\""
  | .vector => "<" ++ value ++ ">"
  | .rotation => "<" ++ value ++ ">"
  | .list => "[" ++ value ++ "]"
  | _ => value

end LibraryConstant

/-- Entries stand in the order they were added. -/
structure Library where
  active : List String := []
  functions : List LibraryFunction := []
  events : List LibraryEvent := []
  constants : List LibraryConstant := []
deriving DecidableEq, Inhabited, Repr

namespace Library

/-- An empty library with these active subsets. -/
def ofSubsets (subsets : List String) : Except Failure Library := do
  subsets.forM checkSubsetName
  return { active := sortedNames subsets }

def overloads (library : Library) (name : String) : List LibraryFunction :=
  library.functions.filter (·.name == name)

def hasFunction (library : Library) (name : String) : Bool :=
  library.functions.any (·.name == name)

def event? (library : Library) (name : String) : Option LibraryEvent :=
  library.events.find? (·.name == name)

def constant? (library : Library) (name : String) : Option LibraryConstant :=
  library.constants.find? (·.name == name)

/-- The overload that takes arguments of these types. One that takes them as they are comes before
one that has to convert them. -/
def resolve? (library : Library) (name : String) (arguments : List ValueType) :
    Option LibraryFunction :=
  match (library.overloads name).find? (·.signature.accepts arguments true) with
  | some overload => some overload
  | none => (library.overloads name).find? (·.signature.accepts arguments false)

/-- The overload with the same name and parameter types. -/
def function? (library : Library) (signature : FunctionSignature) : Option LibraryFunction :=
  (library.overloads signature.name).find? (·.signature.agrees signature)

/-- Adds an overload. The answer says whether it belongs to an active subset and was kept. -/
def addFunction (library : Library) (function : LibraryFunction) :
    Except Failure (Library × Bool) :=
  if !function.metadata.sharesSubset library.active then .ok (library, false)
  else if (library.overloads function.name).any (·.signature.agrees function.signature) then
    .error (.duplicateSignature function.signature.text)
  else .ok ({ library with functions := library.functions ++ [function] }, true)

def addEvent (library : Library) (event : LibraryEvent) : Except Failure (Library × Bool) :=
  if !event.metadata.sharesSubset library.active then .ok (library, false)
  else if (library.event? event.name).isSome then
    .error (.duplicateSignature event.signature.text)
  else .ok ({ library with events := library.events ++ [event] }, true)

def addConstant (library : Library) (constant : LibraryConstant) :
    Except Failure (Library × Bool) :=
  if !constant.metadata.sharesSubset library.active then .ok (library, false)
  else if (library.constant? constant.name).isSome then
    .error (.duplicateSignature constant.signature.text)
  else .ok ({ library with constants := library.constants ++ [constant] }, true)

end Library

end Lsl
