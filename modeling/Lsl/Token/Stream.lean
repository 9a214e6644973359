import Lsl.Token.Lexeme

/-!
A source read into tokens. White space and comments are left out, text that starts no token is
reported and left out, and the closing token stands behind the last character.
-/

set_option autoImplicit false

namespace Lsl

/-- A token or an error found in its place. -/
inductive Scanned where
  | token (token : Token)
  | fault (error : SyntaxError)
deriving DecidableEq, Inhabited, Repr

namespace Scanned

def token? : Scanned → Option Token
  | token found => some found
  | fault _ => none

def fault? : Scanned → Option SyntaxError
  | token _ => none
  | fault error => some error

end Scanned

def SyntaxError.lexical (kind : SyntaxErrorKind) (text : String) (span : Span) : SyntaxError :=
  match kind with
  | .unterminatedComment => ⟨kind, "/*", "unterminated block comment", span⟩
  | .unterminatedString => ⟨kind, "\"", "unterminated string literal", span⟩
  | _ => ⟨kind, text, "token recognition error at: '" ++ text ++ "'", span⟩

/-- What a piece of text adds to the scan. -/
def Lexeme.scanned (lexeme : Lexeme) (text : List Char) (place : Position) : List Scanned :=
  let span : Span := ⟨place, place.advanceOver text⟩
  match lexeme.class_ with
  | .blank => []
  | .token kind => [.token ⟨kind, String.ofList text, span⟩]
  | .fault kind => [.fault (.lexical kind (String.ofList text) span)]

/-- The scan of the source behind a position. The first argument counts characters that still
belong to the piece read last. -/
def scanFrom (place : Position) : Nat → List Char → List Scanned
  | _, [] => []
  | pending + 1, char :: rest => scanFrom (place.advance char) pending rest
  | 0, char :: rest =>
    let lexeme := Lexeme.front char rest
    lexeme.scanned ((char :: rest).take lexeme.length) place ++
      scanFrom (place.advance char) (lexeme.length - 1) rest

def scan (source : String) : List Scanned := scanFrom .origin 0 source.toList

def lexicalErrors (source : String) : List SyntaxError := (scan source).filterMap Scanned.fault?

def tokenize (source : String) : List Token :=
  (scan source).filterMap Scanned.token? ++
    [.closing (Position.origin.advanceOver source.toList)]

end Lsl
