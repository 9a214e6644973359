import Lsl.Text.Blank
import Lsl.Token

/-!
The piece of text at the front of a source: white space, a comment, one token or text that starts
no token. Each rule measures how many characters belong to the piece.
-/

set_option autoImplicit false

namespace Lsl

/-- What the front of a source is, apart from its length. -/
inductive LexemeClass where
  | blank
  | token (kind : TokenKind)
  | fault (kind : SyntaxErrorKind)
deriving DecidableEq, Inhabited, Repr

structure Lexeme where
  class_ : LexemeClass
  length : Nat
deriving DecidableEq, Inhabited, Repr

namespace Lexeme

def isHexDigit (char : Char) : Bool :=
  char.isDigit || ('a' ≤ char && char ≤ 'f') || ('A' ≤ char && char ≤ 'F')

def isNameStart (char : Char) : Bool := char.isAlpha || char == '_'

def isNameChar (char : Char) : Bool := char.isAlphanum || char == '_'

/-- The length of the longest front whose characters all pass. -/
def run (passes : Char → Bool) (chars : List Char) : Nat := (chars.takeWhile passes).length

/-- The length of a comment's rest, up to and with its end. -/
def commentRest? : List Char → Option Nat
  | '*' :: '/' :: _ => some 2
  | _ :: rest => (commentRest? rest).map (· + 1)
  | [] => none

/-- The length of a string's rest, up to and with its closing quote. A backslash takes the
character behind it along. -/
def stringRest? : List Char → Option Nat
  | '"' :: _ => some 1
  | '\\' :: _ :: rest => (stringRest? rest).map (· + 2)
  | ['\\'] => none
  | _ :: rest => (stringRest? rest).map (· + 1)
  | [] => none

def exponentLength : List Char → Nat
  | mark :: rest =>
    if mark == 'e' || mark == 'E' then
      match rest with
      | sign :: digits =>
        if sign == '+' || sign == '-' then
          if run Char.isDigit digits = 0 then 0 else 2 + run Char.isDigit digits
        else if run Char.isDigit rest = 0 then 0
        else 1 + run Char.isDigit rest
      | [] => 0
    else 0
  | [] => 0

def suffixLength : List Char → Nat
  | 'f' :: _ => 1
  | 'F' :: _ => 1
  | _ => 0

/-- A float whose mantissa has the given length, with exponent and suffix. -/
def floatOf (chars : List Char) (mantissa : Nat) : Lexeme :=
  let exponent := exponentLength (chars.drop mantissa)
  let suffix := suffixLength (chars.drop (mantissa + exponent))
  ⟨.token .float, mantissa + exponent + suffix⟩

def number (chars : List Char) : Lexeme :=
  let digits := run Char.isDigit chars
  match chars.drop digits with
  | '.' :: rest => floatOf chars (digits + 1 + run Char.isDigit rest)
  | rest =>
    if exponentLength rest = 0 then ⟨.token .integer, digits⟩ else floatOf chars digits

def hex? : List Char → Option Lexeme
  | '0' :: mark :: rest =>
    if (mark == 'x' || mark == 'X') && run isHexDigit rest != 0 then
      some ⟨.token .hex, 2 + run isHexDigit rest⟩
    else none
  | _ => none

def wordKind : String → TokenKind
  | "default" => .defaultWord
  | "state" => .stateWord
  | "jump" => .jumpWord
  | "return" => .returnWord
  | "if" => .ifWord
  | "else" => .elseWord
  | "for" => .forWord
  | "do" => .doWord
  | "while" => .whileWord
  | "integer" => .type
  | "float" => .type
  | "string" => .type
  | "key" => .type
  | "vector" => .type
  | "rotation" => .type
  | "quaternion" => .type
  | "list" => .type
  | _ => .identifier

def pairKind? : Char → Char → Option TokenKind
  | '<', '<' => some .shiftLeft
  | '>', '>' => some .shiftRight
  | '=', '=' => some .equal
  | '!', '=' => some .notEqual
  | '<', '=' => some .lessEqual
  | '>', '=' => some .greaterEqual
  | '|', '|' => some .or
  | '&', '&' => some .and
  | '+', '+' => some .plusPlus
  | '-', '-' => some .minusMinus
  | '+', '=' => some .plusAssign
  | '-', '=' => some .minusAssign
  | '*', '=' => some .starAssign
  | '/', '=' => some .slashAssign
  | '%', '=' => some .percentAssign
  | _, _ => none

def singleKind? : Char → Option TokenKind
  | '[' => some .openBracket
  | ']' => some .closeBracket
  | '{' => some .openCurly
  | '}' => some .closeCurly
  | '(' => some .openParen
  | ')' => some .closeParen
  | '=' => some .assign
  | '!' => some .not
  | '~' => some .tilde
  | '<' => some .less
  | '>' => some .greater
  | '&' => some .bitAnd
  | '|' => some .bitOr
  | '^' => some .bitXor
  | '.' => some .dot
  | ';' => some .semicolon
  | ',' => some .comma
  | '@' => some .atSign
  | '+' => some .plus
  | '-' => some .dash
  | '/' => some .slash
  | '*' => some .star
  | '%' => some .percent
  | _ => none

/-- A mark; two characters are taken together where they can be. -/
def mark (first : Char) (rest : List Char) : Lexeme :=
  let single : Lexeme :=
    match singleKind? first with
    | some kind => ⟨.token kind, 1⟩
    | none => ⟨.fault .unrecognisedToken, 1⟩
  match rest with
  | second :: _ =>
    match pairKind? first second with
    | some kind => ⟨.token kind, 2⟩
    | none => single
  | [] => single

def comment? : List Char → Option Lexeme
  | '/' :: rest => some ⟨.blank, 2 + run (· != '\n') rest⟩
  | '*' :: rest =>
    match commentRest? rest with
    | some length => some ⟨.blank, 2 + length⟩
    | none => some ⟨.fault .unterminatedComment, 2 + rest.length⟩
  | _ => none

/-- The piece at the front of a source that starts with the given character. -/
def front (first : Char) (rest : List Char) : Lexeme :=
  if Text.isBlank first then ⟨.blank, 1 + run Text.isBlank rest⟩
  else if first == '/' then (comment? rest).getD (mark first rest)
  else if first.isDigit then (hex? (first :: rest)).getD (number (first :: rest))
  else if first == '.' && run Char.isDigit rest != 0 then
    floatOf (first :: rest) (1 + run Char.isDigit rest)
  else if first == '"' then
    match stringRest? rest with
    | some length => ⟨.token .string, 1 + length⟩
    | none => ⟨.fault .unterminatedString, 1 + rest.length⟩
  else if isNameStart first then
    let length := 1 + run isNameChar rest
    ⟨.token (wordKind (String.ofList ((first :: rest).take length))), length⟩
  else mark first rest

end Lexeme

end Lsl
