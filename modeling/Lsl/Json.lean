/-!
Values of JSON documents. A number is kept as it is written, and so are the places where the escapes
of a string stand for no text: such a string can be read as long as nothing asks for its text.
-/

set_option autoImplicit false

namespace Lsl

inductive Json where
  | null
  | bool (value : Bool)
  | number (written : String)
  | string (text : Option String)
  | array (items : List Json)
  | object (members : List (Option String × Json))
deriving Inhabited

end Lsl
