import Lsl.Signature

/-!
What a library says about an entry besides its signature: the subsets it is published under, named
properties and documentation. Subsets and properties are kept in the order of their names.
-/

set_option autoImplicit false

namespace Lsl

/-- A letter or underscore, then letters, digits, underscores and dashes. -/
def isSubsetName (name : String) : Bool :=
  match name.toList with
  | first :: rest =>
    Lexeme.isNameStart first && rest.all fun char => Lexeme.isNameChar char || char == '-'
  | [] => false

def checkSubsetName (name : String) : Except Failure Unit :=
  if isSubsetName name then .ok () else .error (.invalidSubsetName name)

/-- The names of a comma separated list. Empty places are left out. -/
def readSubsets (text : String) : Except Failure (List String) :=
  ((Text.splitCommas text).map Text.trim).filter (· != "") |>.mapM fun name => do
    checkSubsetName name
    return name

def insertName (name : String) : List String → List String
  | [] => [name]
  | other :: rest =>
    if name = other then other :: rest
    else if name < other then name :: other :: rest
    else other :: insertName name rest

def sortedNames (names : List String) : List String :=
  names.foldl (fun sorted name => insertName name sorted) []

/-- Sets a property among properties in increasing order of their names. -/
def insertProperty (name value : String) : List (String × String) → List (String × String)
  | [] => [(name, value)]
  | (other, old) :: rest =>
    if name = other then (name, value) :: rest
    else if name < other then (name, value) :: (other, old) :: rest
    else (other, old) :: insertProperty name value rest

structure Metadata where
  subsets : List String := []
  properties : List (String × String) := []
  documentation : String := ""
deriving DecidableEq, Inhabited, Repr

namespace Metadata

def addSubset (metadata : Metadata) (name : String) : Except Failure Metadata := do
  checkSubsetName name
  return { metadata with subsets := insertName name metadata.subsets }

/-- Replaces the subsets by a comma separated list. -/
def setSubsets (metadata : Metadata) (text : String) : Except Failure Metadata := do
  return { metadata with subsets := sortedNames (← readSubsets text) }

def sharesSubset (metadata : Metadata) (active : List String) : Bool :=
  metadata.subsets.any active.contains

def property? (metadata : Metadata) (name : String) : Option String :=
  metadata.properties.lookup name

def setProperty (metadata : Metadata) (name value : String) : Metadata :=
  { metadata with properties := insertProperty name value metadata.properties }

def removeProperty (metadata : Metadata) (name : String) : Metadata :=
  { metadata with properties := metadata.properties.filter (·.1 != name) }

def isTrueWord (text : String) : Bool := text.toList.map Char.toLower == "true".toList

def flag (metadata : Metadata) (name : String) : Bool :=
  (metadata.property? name).any isTrueWord

def isDeprecated (metadata : Metadata) : Bool := metadata.flag "Deprecated"

def setDeprecated (metadata : Metadata) (deprecated : Bool) : Metadata :=
  if deprecated then metadata.setProperty "Deprecated" "true"
  else metadata.removeProperty "Deprecated"

/-- The function is called by name through the module interface. -/
def isModuleCall (metadata : Metadata) : Bool := metadata.flag "ModInvoke"

/-- The constant is written out as its value. -/
def isExpanded (metadata : Metadata) : Bool := metadata.flag "Expand"

/-- A signature followed by what is worth knowing about it. -/
def annotate (metadata : Metadata) (signature : String) : String :=
  let documentation := Text.trim metadata.documentation
  (if signature.endsWith ";" then signature else signature ++ ";") ++
    (if metadata.isDeprecated then "\n// Deprecated" else "") ++
    (if documentation == "" then "" else "\n\n" ++ documentation)

end Metadata

end Lsl
