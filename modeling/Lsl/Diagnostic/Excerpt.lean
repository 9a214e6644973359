import Lsl.Diagnostic
import Lsl.Source
import Lsl.Text.Blank

/-!
Diagnostics as they are shown to people: with the line they are about and a caret below the place.
-/

set_option autoImplicit false

namespace Lsl

namespace Text

/-- The lines of a text, each with the newline that ends it. There is no line behind the last
newline. -/
def lines : List Char → List (List Char)
  | [] => []
  | char :: rest =>
    if char = '\n' then [char] :: lines rest
    else
      match lines rest with
      | [] => [[char]]
      | line :: more => (char :: line) :: more

end Text

structure LinePlace where
  number : Nat
  text : List Char
  offset : Nat
deriving DecidableEq, Inhabited, Repr

namespace LinePlace

/-- The place among the lines that are left, the first of which has the number. Behind the last
character it is the end of the last line, unless that line is ended by a newline: then it is the
start of an empty line. -/
def among (number : Nat) (offset : Nat) : List (List Char) → Option LinePlace
  | [] => if offset = 0 then some ⟨number, [], 0⟩ else none
  | line :: rest =>
    if offset < Text.byteSize line then some ⟨number, line, offset⟩
    else if rest.isEmpty ∧ offset = Text.byteSize line ∧ line.getLast? ≠ some '\n' then
      some ⟨number, line, offset⟩
    else among (number + 1) (offset - Text.byteSize line) rest

/-- The line that holds the byte at an offset. No line does if the offset is past the end. -/
def find? (source : String) (offset : Nat) : Option LinePlace :=
  among 1 offset (Text.lines source.toList)

end LinePlace

namespace Diagnostic

def isIndent (char : Char) : Bool := char == ' ' || char == '\t'

def spaces (count : Nat) : String := String.ofList (List.replicate count ' ')

def heading (diagnostic : Diagnostic) : String :=
  (if diagnostic.isError then "Error: " else "Warning: ") ++ diagnostic.problem.name ++
    match diagnostic.problem.tip? with
    | some tip => " (" ++ tip ++ ")\n"
    | none => "\n"

def location (diagnostic : Diagnostic) (file : String) : String :=
  let place := diagnostic.span.start
  "-> " ++ file ++ ":" ++ toString place.line ++ ":" ++ toString place.column ++ "\n"

/-- The line without its indentation, and the message behind a caret. -/
def excerpt (diagnostic : Diagnostic) (place : LinePlace) : String :=
  let number := toString place.number
  let margin := spaces (number.length + 1) ++ "|"
  let indent := (place.text.takeWhile isIndent).length
  let shown := String.ofList (Text.trimRight (place.text.drop indent))
  let dashes := String.ofList (List.replicate (place.offset - indent) '-')
  margin ++ "\n" ++ number ++ " | " ++ shown ++ "\n" ++ margin ++ " " ++ dashes ++ "^ " ++
    diagnostic.problem.message ++ "\n"

def render (diagnostic : Diagnostic) (source file : String) : String :=
  diagnostic.heading ++ diagnostic.location file ++
    match LinePlace.find? source diagnostic.span.start.offset with
    | some place => diagnostic.excerpt place
    | none => "   " ++ diagnostic.problem.message ++ "\n"

end Diagnostic

end Lsl
