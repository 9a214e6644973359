import Lsl.Library

/-!
An entry as a library descriptor gives it, before it has become part of a library.
-/

set_option autoImplicit false

namespace Lsl

inductive EntryKind where
  | function
  | event
  | constant
deriving DecidableEq, Inhabited, Repr

namespace EntryKind

def element : EntryKind → String
  | function => "LibraryFunction"
  | event => "EventHandler"
  | constant => "LibraryConstant"

def ofElement? : String → Option EntryKind
  | "LibraryFunction" => some function
  | "EventHandler" => some event
  | "LibraryConstant" => some constant
  | _ => none

end EntryKind

/-- The type is what a function returns or a constant has. -/
structure Entry where
  kind : EntryKind
  name : String
  type : ValueType := .void
  value : String := ""
  parameters : List Parameter := []
  metadata : Metadata := {}
deriving DecidableEq, Inhabited, Repr

def Entry.label (entry : Entry) : String := entry.kind.element ++ " '" ++ entry.name ++ "'"

namespace Entry

/-- A function of the subset every script has. -/
def function (returns : ValueType) (name : String) (parameters : List (String × ValueType)) :
    Entry where
  kind := .function
  name := name
  type := returns
  parameters := parameters.mapIdx fun index (name, type) => ⟨name, type, false, index⟩
  metadata := { subsets := ["lsl"] }

/-- An event of the subset every script has. -/
def event (name : String) (parameters : List (String × ValueType)) : Entry where
  kind := .event
  name := name
  parameters := parameters.mapIdx fun index (name, type) => ⟨name, type, false, index⟩
  metadata := { subsets := ["lsl"] }

/-- A constant of the subset every script has. -/
def constant (type : ValueType) (name value : String) : Entry where
  kind := .constant
  name := name
  type := type
  value := value
  metadata := { subsets := ["lsl"] }

def documented (entry : Entry) (documentation : String) : Entry :=
  { entry with metadata := { entry.metadata with documentation } }

def flagged (entry : Entry) (property : String) : Entry :=
  { entry with metadata := entry.metadata.setProperty property "true" }

end Entry

def Library.addEntry (library : Library) (entry : Entry) : Except Failure Library := do
  match entry.kind with
  | .function =>
    let signature ← FunctionSignature.ofParameters entry.type entry.name entry.parameters
    return (← library.addFunction ⟨signature, entry.metadata⟩).1
  | .event =>
    let signature ← EventSignature.ofParameters entry.name entry.parameters
    return (← library.addEvent ⟨signature, entry.metadata⟩).1
  | .constant =>
    let signature ← ConstantSignature.ofValue entry.type entry.name entry.value
    return (← library.addConstant ⟨signature, entry.metadata⟩).1

end Lsl
