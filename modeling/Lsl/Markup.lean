/-!
What a reader of markup documents gives: tags and texts, one behind the other, each with the number
of bytes up to where the reading has come. Which reader it is is left open. What is loaded from a
document depends on what its reader gives and on nothing else.
-/

set_option autoImplicit false

namespace Lsl.Markup

/-- A tag with its attributes one by one: the key and what is written for the value, or nothing where
the reader has an error to give instead. -/
structure Tag where
  name : String
  items : List (Option (String × String))
deriving DecidableEq, Inhabited, Repr

inductive Event where
  | opening (tag : Tag)
  | selfClosed (tag : Tag)
  | closing (name : String)
  | text (raw : String)
  | verbatim (raw : String)
  | skipped
deriving DecidableEq, Inhabited, Repr

/-- An event and the number of bytes in front of what follows it. -/
structure Located where
  event : Event
  stop : Nat
deriving DecidableEq, Inhabited, Repr

/-- What is read of a document: its events up to the end, or up to a fault that ends the reading. -/
structure Reading where
  events : List Located
  stop : Nat
  fault : Option String := none
deriving DecidableEq, Inhabited, Repr

/-- A reader gives the events of a document, and knows what the references in a text stand for. -/
structure Reader where
  read : String → Reading
  unescape? : String → Option String

end Lsl.Markup
