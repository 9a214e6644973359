import Lsl.Syntax.Script
import Lsl.Token.Stream

/-!
The state of reading a script: the tokens ahead, the end of the last token read, the errors reported
so far and the next number for a code scope. The closing token is never stepped over.
-/

set_option autoImplicit false

namespace Lsl

structure Cursor where
  ahead : List Token
  close : Token
  behind : Option Position := none
  errors : List SyntaxError := []
  nextScope : Nat := 1024
deriving Inhabited, Repr

namespace Cursor

/-- Tokens behind the first closing token are out of sight. A list without one is closed at the end
of its last token. -/
def ofTokens (tokens : List Token) : Cursor where
  ahead := tokens.takeWhile (·.kind != .endOfFile)
  close := (tokens.find? (·.kind == .endOfFile)).getD
    (.closing ((tokens.getLast?.map (·.span.stop)).getD .origin))

def current (cursor : Cursor) : Token := cursor.ahead.headD cursor.close

def kind (cursor : Cursor) : TokenKind := cursor.current.kind

def peekKind (cursor : Cursor) (places : Nat) : TokenKind :=
  (cursor.ahead[places]?.getD cursor.close).kind

def start (cursor : Cursor) : Position := cursor.current.span.start

/-- The end of the token read last. -/
def stop (cursor : Cursor) : Position := cursor.behind.getD cursor.start

def step (cursor : Cursor) : Cursor :=
  match cursor.ahead with
  | [] => cursor
  | token :: rest => { cursor with ahead := rest, behind := some token.span.stop }

def skip : Nat → Cursor → Cursor
  | 0, cursor => cursor
  | count + 1, cursor => skip count cursor.step

def spanFrom (cursor : Cursor) (start : Position) : Span := ⟨start, cursor.stop⟩

/-- The span of text that could not be read. It is empty if no token of it was read. -/
def brokenSpan (cursor : Cursor) (start : Position) : Span :=
  if cursor.stop.offset < start.offset then .point start else ⟨start, cursor.stop⟩

/-- The current token is not one of those expected. -/
def mismatch (cursor : Cursor) (expecting : String) : SyntaxError :=
  let token := cursor.current
  let message :=
    if token.kind = .endOfFile then "missing " ++ expecting ++ " at '<EOF>'"
    else "mismatched input '" ++ token.text ++ "' expecting " ++ expecting
  ⟨.grammar, token.text, message, token.span⟩

/-- More steps than any reader below takes on the tokens ahead. -/
def budget (cursor : Cursor) : Nat := 8 * cursor.ahead.length + 8

end Cursor

/-- A reader of a part of the script. Also a reader that fails says how far it came. -/
abbrev Parser := EStateM SyntaxError Cursor

namespace Parser

def peek : Parser Cursor := get

/-- The current token, which is stepped over. -/
def next : Parser Token := do
  let cursor ← get
  set cursor.step
  return cursor.current

def mismatched {α : Type} (expecting : String) : Parser α := do
  throw ((← get).mismatch expecting)

def expectOr (kind : TokenKind) (expecting : String) : Parser Token := do
  if (← get).kind = kind then next else mismatched expecting

def expect (kind : TokenKind) : Parser Token := expectOr kind kind.grammarName

/-- Steps over a token of this kind, if one is there. -/
def accept (kind : TokenKind) : Parser Bool := do
  if (← get).kind = kind then
    let _ ← next
    return true
  else return false

def report (error : SyntaxError) : Parser Unit :=
  modify fun cursor => { cursor with errors := cursor.errors ++ [error] }

def freshScope : Parser Nat := do
  let cursor ← get
  set { cursor with nextScope := cursor.nextScope + 1 }
  return cursor.nextScope

def spanFrom (start : Position) : Parser Span := return (← get).spanFrom start

def recovering {α : Type} (reader : Parser α) (handle : SyntaxError → Parser α) : Parser α :=
  fun cursor =>
    match reader cursor with
    | .ok value after => .ok value after
    | .error error after => handle error after

/-- A type word, where the text of the token names a type. -/
def type : Parser ValueType := do
  let token ← expect .type
  match ValueType.ofKeyword? token.text with
  | some type => return type
  | none =>
    throw ⟨.grammar, token.text, "mismatched input '" ++ token.text ++ "' expecting TYPE",
      token.span⟩

end Parser

end Lsl
