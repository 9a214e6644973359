import Lsl.Library.Entry
import Lsl.Markup
import Lsl.Text.Blank

/-!
Library descriptors: markup documents that list the entries of a library. Every entry is read and
checked, whether or not one of its subsets is active. The first broken element ends the reading and
is reported with the line on which it ends; what was read before it stays in the library.
-/

set_option autoImplicit false

namespace Lsl.Descriptor

/-- Why an element is refused. -/
inductive Fault where
  | wrongRoot (name : String)
  | missingRoot
  | nested (entry : Entry) (element : String)
  | unexpected (element : String)
  | unexpectedIn (entry : Entry) (element : String)
  | neverClosed (entry : Entry)
  | unknownAttribute (kind : EntryKind) (found : String)
  | missingName (kind : EntryKind)
  | missingAttribute (label wanted : String)
  | unknownType (label type : String)
  | constantParameter (entry : Entry)
  | unknownParameterAttribute (entry : Entry) (found : String)
  | unnamedParameter (entry : Entry)
  | untypedParameter (entry : Entry) (parameter : String)
  | unknownPropertyAttribute (entry : Entry) (found : String)
  | incompleteProperty (entry : Entry)
  | repeatedProperty (entry : Entry) (property : String)
  | refused (label : String) (failure : Failure)
  | markup (message : String)
deriving Inhabited

namespace Fault

def message : Fault → String
  | wrongRoot name => "Expected root element 'LibraryData', found '" ++ name ++ "'."
  | missingRoot => "Missing root element 'LibraryData'."
  | nested entry element => entry.label ++ ": Unexpected nested element '" ++ element ++ "'."
  | unexpected element => "Unexpected element '" ++ element ++ "'."
  | unexpectedIn entry element => entry.label ++ ": Unexpected element '" ++ element ++ "'."
  | neverClosed entry => entry.label ++ ": Element was never closed."
  | unknownAttribute kind found =>
    kind.element ++ ": Unknown attribute '" ++ found ++ "'."
  | missingName kind => kind.element ++ ": Missing Name attribute."
  | missingAttribute label wanted => label ++ ": Missing " ++ wanted ++ " attribute."
  | unknownType label type => label ++ ": Unknown type '" ++ type ++ "'."
  | constantParameter entry => entry.label ++ ": Constants take no parameters."
  | unknownParameterAttribute entry found =>
    entry.label ++ ": Unknown Parameter attribute '" ++ found ++ "'."
  | unnamedParameter entry => entry.label ++ ": Parameter missing Name attribute."
  | untypedParameter entry parameter =>
    entry.label ++ ": Parameter '" ++ parameter ++ "' missing Type attribute."
  | unknownPropertyAttribute entry found =>
    entry.label ++ ": Unknown Property attribute '" ++ found ++ "'."
  | incompleteProperty entry => entry.label ++ ": Property requires Name and Value attributes."
  | repeatedProperty entry property =>
    entry.label ++ ": Property '" ++ property ++ "' defined more than once."
  | refused label failure => label ++ ": " ++ failure.message
  | markup message => message

end Fault

/-- Passes on what went wrong with an entry. -/
def within {α : Type} (label : String) : Except Failure α → Except Fault α
  | .ok value => .ok value
  | .error failure => .error (.refused label failure)

def attributes (tag : Markup.Tag) : List (String × String) := tag.items.filterMap id

def valueOf? (tag : Markup.Tag) (name : String) : Option String :=
  (attributes tag).reverse.lookup name

/-- The first attribute with a name that is not among those allowed. -/
def stranger? (tag : Markup.Tag) (allowed : List String) : Option String :=
  ((attributes tag).find? fun item => !allowed.contains item.1).map (·.1)

def allowedAttributes : EntryKind → List String
  | .function => ["Name", "Subsets", "ReturnType"]
  | .event => ["Name", "Subsets"]
  | .constant => ["Name", "Subsets", "Type", "Value"]

def typeOf (label text : String) : Except Fault ValueType :=
  match ValueType.ofLibraryName? text with
  | some type => .ok type
  | none => .error (.unknownType label text)

/-- What a function returns or a constant has. Functions may leave it out. -/
def entryType (kind : EntryKind) (label : String) (tag : Markup.Tag) :
    Except Fault ValueType :=
  match kind with
  | .event => .ok .void
  | .function =>
    match valueOf? tag "ReturnType" with
    | some text => typeOf label text
    | none => .ok .void
  | .constant =>
    match valueOf? tag "Type" with
    | some text => typeOf label text
    | none => .error (.missingAttribute label "Type")

def entryValue (kind : EntryKind) (label : String) (tag : Markup.Tag) : Except Fault String :=
  match kind, valueOf? tag "Value" with
  | .constant, none => .error (.missingAttribute label "Value")
  | _, value => .ok (value.getD "")

def beginEntry (kind : EntryKind) (tag : Markup.Tag) : Except Fault Entry := do
  if let some name := stranger? tag (allowedAttributes kind) then
    throw (.unknownAttribute kind name)
  let some name := valueOf? tag "Name" | throw (.missingName kind)
  let label := ({ kind, name } : Entry).label
  within label (checkIdentifier name)
  let some subsets := valueOf? tag "Subsets" | throw (.missingAttribute label "Subsets")
  let metadata ← within label (({} : Metadata).setSubsets subsets)
  let type ← entryType kind label tag
  let value ← entryValue kind label tag
  return { kind, name, type, value, metadata }

def addParameter (entry : Entry) (tag : Markup.Tag) : Except Fault Entry := do
  if entry.kind = .constant then throw (.constantParameter entry)
  if let some name := stranger? tag ["Name", "Type", "Variadic"] then
    throw (.unknownParameterAttribute entry name)
  let some name := valueOf? tag "Name" | throw (.unnamedParameter entry)
  let some typeName := valueOf? tag "Type" | throw (.untypedParameter entry name)
  within entry.label (checkIdentifier name)
  let type ← typeOf entry.label typeName
  let variadic := (valueOf? tag "Variadic").any Metadata.isTrueWord
  let parameter : Parameter := ⟨name, type, variadic, entry.parameters.length⟩
  return { entry with parameters := entry.parameters ++ [parameter] }

def addProperty (entry : Entry) (tag : Markup.Tag) : Except Fault Entry := do
  if let some name := stranger? tag ["Name", "Value"] then
    throw (.unknownPropertyAttribute entry name)
  match valueOf? tag "Name", valueOf? tag "Value" with
  | some name, some value =>
    if (entry.metadata.property? name).isSome then throw (.repeatedProperty entry name)
    return { entry with metadata := entry.metadata.setProperty name value }
  | _, _ => throw (.incompleteProperty entry)

/-- How far a descriptor has been read: the library so far, the entry whose closing tag is still to
come, and whether text is documentation. -/
structure Progress where
  library : Library
  entry : Option Entry := none
  documenting : Bool := false
  rooted : Bool := false
deriving Inhabited

namespace Progress

def finish (progress : Progress) (entry : Entry) : Except Fault Progress := do
  let library ← within entry.label (progress.library.addEntry entry)
  return { progress with library, entry := none }

/-- Changes the documentation of the open entry, if text is documentation. -/
def document (progress : Progress) (extend : String → String) : Progress :=
  match progress.documenting, progress.entry with
  | true, some entry =>
    let metadata :=
      { entry.metadata with documentation := extend entry.metadata.documentation }
    { progress with entry := some { entry with metadata } }
  | _, _ => progress

def readDetail (progress : Progress) (entry : Entry) (tag : Markup.Tag) (closed : Bool) :
    Except Fault Progress := do
  match tag.name with
  | "Parameter" => return { progress with entry := some (← addParameter entry tag) }
  | "Property" => return { progress with entry := some (← addProperty entry tag) }
  | "DocumentationString" => return { progress with documenting := !closed }
  | name => throw (.unexpectedIn entry name)

def readTag (progress : Progress) (tag : Markup.Tag) (closed : Bool) :
    Except Fault Progress := do
  if !progress.rooted then
    if tag.name ≠ "LibraryData" then throw (.wrongRoot tag.name)
    return { progress with rooted := true }
  match EntryKind.ofElement? tag.name, progress.entry with
  | some _, some entry => throw (.nested entry tag.name)
  | some kind, none =>
    let entry ← beginEntry kind tag
    if closed then progress.finish entry else return { progress with entry := some entry }
  | none, some entry => progress.readDetail entry tag closed
  | none, none => throw (.unexpected tag.name)

def readText (progress : Progress) (reader : Markup.Reader) (raw : String) : Progress :=
  progress.document fun documentation =>
    (if documentation == "" then "" else documentation ++ "\n") ++
      Text.trim ((reader.unescape? raw).getD "")

def readClosing (progress : Progress) (name : String) : Except Fault Progress :=
  if name = "DocumentationString" then .ok { progress with documenting := false }
  else
    match EntryKind.ofElement? name, progress.entry with
    | some _, some entry => progress.finish entry
    | _, _ => .ok progress

def read (reader : Markup.Reader) (progress : Progress) : Markup.Event → Except Fault Progress
  | .opening tag => progress.readTag tag false
  | .selfClosed tag => progress.readTag tag true
  | .closing name => progress.readClosing name
  | .text raw => .ok (progress.readText reader raw)
  | .verbatim raw => .ok (progress.document (· ++ Text.trim raw))
  | .skipped => .ok progress

/-- Where the events end, the document ends or the reader has found a fault. -/
def readEnd (progress : Progress) (fault : Option String) : Except Fault Unit := do
  if let some message := fault then throw (.markup message)
  if !progress.rooted then throw .missingRoot
  if let some entry := progress.entry then throw (.neverClosed entry)

end Progress

def lineAfter (bytes : Nat) : List Char → Nat
  | [] => 1
  | char :: rest =>
    if bytes = 0 then 1
    else (if char == '\n' then 1 else 0) + lineAfter (bytes - char.utf8Size) rest

def failureAt (document : String) (bytes : Nat) (fault : Fault) : Failure :=
  .libraryData (lineAfter bytes document.toList) fault.message

/-- Takes in the events that are left of a reading, up to the first fault. -/
def Progress.readAll (reader : Markup.Reader) (document : String) (reading : Markup.Reading)
    (progress : Progress) : List Markup.Located → Progress × Option Failure
  | [] =>
    match progress.readEnd reading.fault with
    | .ok _ => (progress, none)
    | .error fault => (progress, some (failureAt document reading.stop fault))
  | located :: rest =>
    match progress.read reader located.event with
    | .ok next => next.readAll reader document reading rest
    | .error fault => (progress, some (failureAt document located.stop fault))

end Lsl.Descriptor

namespace Lsl.Library

/-- Adds the entries of a descriptor. After a failure the library holds what came before it. -/
def load (reader : Markup.Reader) (library : Library) (document : String) :
    Library × Option Failure :=
  let progress : Descriptor.Progress := { library }
  let reading := reader.read document
  let (progress, failure) := progress.readAll reader document reading reading.events
  (progress.library, failure)

def ofDescriptor (reader : Markup.Reader) (document : String) (subsets : List String) :
    Except Failure Library := do
  let (library, failure) := (← ofSubsets subsets).load reader document
  match failure with
  | some failure => throw failure
  | none => return library

end Lsl.Library
