import Lsl.Operator
import Lsl.Source

/-!
The tokens of a script and the errors of its grammar. A token keeps the text it was read from.
-/

set_option autoImplicit false

namespace Lsl

inductive TokenKind where
  | endOfFile
  | integer
  | hex
  | float
  | string
  | identifier
  | type
  | openBracket
  | closeBracket
  | openCurly
  | closeCurly
  | openParen
  | closeParen
  | assign
  | equal
  | not
  | notEqual
  | tilde
  | less
  | lessEqual
  | greater
  | greaterEqual
  | shiftLeft
  | shiftRight
  | or
  | and
  | bitAnd
  | bitOr
  | bitXor
  | dot
  | semicolon
  | comma
  | atSign
  | plusPlus
  | minusMinus
  | plusAssign
  | minusAssign
  | starAssign
  | slashAssign
  | percentAssign
  | plus
  | dash
  | slash
  | star
  | percent
  | defaultWord
  | stateWord
  | jumpWord
  | returnWord
  | ifWord
  | elseWord
  | forWord
  | doWord
  | whileWord
deriving DecidableEq, Inhabited, Repr

namespace TokenKind

/-- The name of a kind in messages that list what was expected. -/
def grammarName : TokenKind → String
  | endOfFile => "<EOF>"
  | integer => "INT"
  | hex => "HEX_LITERAL"
  | float => "FLOAT"
  | string => "QUOTED_STRING"
  | identifier => "ID"
  | type => "TYPE"
  | openBracket => "'['"
  | closeBracket => "']'"
  | openCurly => "'\x7b'"
  | closeCurly => "'\x7d'"
  | openParen => "'('"
  | closeParen => "')'"
  | assign => "'='"
  | equal => "'=='"
  | not => "'!'"
  | notEqual => "'!='"
  | tilde => "'~'"
  | less => "'<'"
  | lessEqual => "'<='"
  | greater => "'>'"
  | greaterEqual => "'>='"
  | shiftLeft => "'<<'"
  | shiftRight => "'>>'"
  | or => "'||'"
  | and => "'&&'"
  | bitAnd => "'&'"
  | bitOr => "'|'"
  | bitXor => "'^'"
  | dot => "'.'"
  | semicolon => "';'"
  | comma => "','"
  | atSign => "'@'"
  | plusPlus => "'++'"
  | minusMinus => "'--'"
  | plusAssign => "'+='"
  | minusAssign => "'-='"
  | starAssign => "'*='"
  | slashAssign => "'/='"
  | percentAssign => "'%='"
  | plus => "'+'"
  | dash => "'-'"
  | slash => "'/'"
  | star => "'*'"
  | percent => "'%'"
  | defaultWord => "'default'"
  | stateWord => "'state'"
  | jumpWord => "'jump'"
  | returnWord => "'return'"
  | ifWord => "'if'"
  | elseWord => "'else'"
  | forWord => "'for'"
  | doWord => "'do'"
  | whileWord => "'while'"

def binaryOperator? : TokenKind → Option BinaryOperator
  | plus => some .add
  | plusAssign => some .addAssign
  | dash => some .subtract
  | minusAssign => some .subtractAssign
  | star => some .multiply
  | starAssign => some .multiplyAssign
  | slash => some .divide
  | slashAssign => some .divideAssign
  | percent => some .modulus
  | percentAssign => some .modulusAssign
  | assign => some .assign
  | bitXor => some .bitXor
  | bitAnd => some .bitAnd
  | bitOr => some .bitOr
  | or => some .logicalOr
  | and => some .logicalAnd
  | less => some .less
  | lessEqual => some .lessEqual
  | greater => some .greater
  | greaterEqual => some .greaterEqual
  | shiftLeft => some .shiftLeft
  | shiftRight => some .shiftRight
  | equal => some .equal
  | notEqual => some .notEqual
  | _ => none

def prefixOperator? : TokenKind → Option PrefixOperator
  | dash => some .negate
  | not => some .not
  | tilde => some .bitNot
  | plusPlus => some .increment
  | minusMinus => some .decrement
  | _ => none

def isAssignment (kind : TokenKind) : Bool :=
  match kind.binaryOperator? with
  | some operator => operator.isAssignment
  | none => false

/-- The kinds of tokens that write a value by themselves. -/
def isLiteral : TokenKind → Bool
  | integer => true
  | hex => true
  | float => true
  | string => true
  | _ => false

end TokenKind

structure Token where
  kind : TokenKind
  text : String
  span : Span
deriving DecidableEq, Inhabited, Repr

/-- The token behind the last character of a source. -/
def Token.closing (place : Position) : Token := ⟨.endOfFile, "<EOF>", .point place⟩

inductive SyntaxErrorKind where
  | unrecognisedToken
  | unterminatedString
  | unterminatedComment
  | grammar
deriving DecidableEq, Inhabited, Repr

/-- Text that is no script: the offending symbol, a message and where it stands. -/
structure SyntaxError where
  kind : SyntaxErrorKind
  symbol : String
  message : String
  span : Span
deriving DecidableEq, Inhabited, Repr

end Lsl
