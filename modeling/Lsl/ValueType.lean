/-!
The types of script values. `void` is the type of a call that gives nothing back. The codes are
part of generated names and never change.
-/

set_option autoImplicit false

namespace Lsl

inductive ValueType where
  | void
  | integer
  | float
  | string
  | key
  | vector
  | rotation
  | list
deriving DecidableEq, Inhabited, Repr

namespace ValueType

def all : List ValueType := [void, integer, float, string, key, vector, rotation, list]

/-- The word a script writes for the type. `void` has no such word and is used in messages only. -/
def keyword : ValueType → String
  | void => "void"
  | integer => "integer"
  | float => "float"
  | string => "string"
  | key => "key"
  | vector => "vector"
  | rotation => "rotation"
  | list => "list"

/-- The type a script word names. `quaternion` is a second word for `rotation`. -/
def ofKeyword? : String → Option ValueType
  | "integer" => some integer
  | "float" => some float
  | "string" => some string
  | "key" => some key
  | "vector" => some vector
  | "rotation" => some rotation
  | "quaternion" => some rotation
  | "list" => some list
  | _ => none

def libraryName : ValueType → String
  | void => "Void"
  | integer => "Integer"
  | float => "Float"
  | string => "String"
  | key => "Key"
  | vector => "Vector"
  | rotation => "Rotation"
  | list => "List"

def ofLibraryName? : String → Option ValueType
  | "Void" => some void
  | "Integer" => some integer
  | "Float" => some float
  | "String" => some string
  | "Key" => some key
  | "Vector" => some vector
  | "Rotation" => some rotation
  | "Quaternion" => some rotation
  | "List" => some list
  | _ => none

def code : ValueType → Nat
  | void => 0
  | integer => 1
  | float => 2
  | string => 3
  | key => 4
  | vector => 5
  | rotation => 6
  | list => 7

/-- A value of the first type may be stored where the second is expected without a cast. -/
def convertsTo (source target : ValueType) : Bool :=
  match source, target with
  | void, _ => false
  | _, void => false
  | integer, float => true
  | string, key => true
  | key, string => true
  | _, _ => source == target

def castsTo (source target : ValueType) : Bool :=
  match source, target with
  | void, _ => false
  | _, void => false
  | string, _ => true
  | integer, float => true
  | float, integer => true
  | _, string => true
  | list, _ => target == list
  | _, list => true
  | _, _ => source == target

def isNumeric : ValueType → Bool
  | integer => true
  | float => true
  | _ => false

/-- Lists hold any value but another list. -/
def isListElement : ValueType → Bool
  | void => false
  | list => false
  | _ => true

end ValueType

end Lsl
