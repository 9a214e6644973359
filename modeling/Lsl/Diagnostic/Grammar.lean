import Lsl.Diagnostic
import Lsl.Text.Blank
import Lsl.Token

/-!
Grammar errors as diagnostics. An assignment whose left side cannot be assigned to is a mismatch
like any other to the grammar; what it expected instead tells it apart.
-/

set_option autoImplicit false

namespace Lsl

namespace Text

def dropFront? : List Char → List Char → Option (List Char)
  | [], chars => some chars
  | _ :: _, [] => none
  | wanted :: more, char :: rest => if wanted = char then dropFront? more rest else none

def lineUpTo? (mark : Char) : List Char → Option (List Char)
  | [] => none
  | char :: rest =>
    if char = mark then some []
    else if char = '\n' then none
    else (lineUpTo? mark rest).map (char :: ·)

end Text

namespace SyntaxError

/-- The characters that make a modifying assignment of an equals sign. -/
def isModifier (char : Char) : Bool :=
  char == '*' || char == '+' || char == '-' || char == '/' || char == '%'

def dropModifier (chars : List Char) : List Char :=
  match chars with
  | char :: rest => if isModifier char then rest else chars
  | [] => []

def expectedAtFront? (message : List Char) : Option (List Char) := do
  let rest ← Text.dropFront? "mismatched input '".toList message
  let rest ← Text.dropFront? "=' expecting \x7b".toList (dropModifier rest)
  Text.lineUpTo? '\x7d' rest

def expectedFor? : List Char → Option (List Char)
  | [] => none
  | char :: rest =>
    match expectedAtFront? (char :: rest) with
    | some expected => some expected
    | none => expectedFor? rest

/-- The kinds of tokens an operand may start with. Where one of them is expected, the assignment
stands in the place of an operand. -/
def operandNames : List String :=
  [TokenKind.type, .identifier, .integer, .float, .hex, .string].map TokenKind.grammarName

/-- A message about an assignment that stands behind an operand which cannot be assigned to. -/
def isAssignmentMismatch (message : String) : Bool :=
  match expectedFor? message.toList with
  | none => false
  | some expected =>
    let names := (Text.splitCommas (String.ofList expected)).map Text.trim
    names.contains TokenKind.star.grammarName && !names.any operandNames.contains

end SyntaxError

def Diagnostic.ofSyntaxError (error : SyntaxError) : Diagnostic where
  problem :=
    match error.kind with
    | .unrecognisedToken => .unrecognisedToken error.symbol
    | .unterminatedString => .unterminatedString
    | .unterminatedComment => .unterminatedComment
    | .grammar =>
      if SyntaxError.isAssignmentMismatch error.message then .nonAssignable error.message
      else .grammar error.message
  span := error.span

end Lsl
