import Lsl.Json
import Lsl.Literal.Decimal

/-!
The reader and the writer of JSON documents that runs are made with. Documents are written with one
member or item to a line, indented by two spaces a level.
-/

set_option autoImplicit false

namespace Lsl

namespace Json

def isSpace (char : Char) : Bool :=
  char == ' ' || char == '\n' || char == '\t' || char == '\r'

def skipSpace (chars : List Char) : List Char := chars.dropWhile isSpace

def isHexDigit (char : Char) : Bool := (digitValue? 16 char).isSome

/-- The characters that may stand behind a backslash by themselves. -/
def isSimpleEscape (char : Char) : Bool :=
  char == '"' || char == '\\' || char == '/' || char == 'b' || char == 'f' || char == 'n' ||
    char == 'r' || char == 't'

/-- What is written up to the closing quote, and what follows that quote. -/
def stringBody? : List Char → Option (List Char × List Char)
  | [] => none
  | '"' :: rest => some ([], rest)
  | '\\' :: 'u' :: a :: b :: c :: d :: rest =>
    if [a, b, c, d].all isHexDigit then
      (stringBody? rest).map fun (body, rest) => (['\\', 'u', a, b, c, d] ++ body, rest)
    else none
  | '\\' :: char :: rest =>
    if isSimpleEscape char then
      (stringBody? rest).map fun (body, rest) => ('\\' :: char :: body, rest)
    else none
  | char :: rest =>
    if char.toNat < 0x20 ∨ char = '\\' then none
    else (stringBody? rest).map fun (body, rest) => (char :: body, rest)

/-- The number four hexadecimal digits write. -/
def unit? (a b c d : Char) : Option Nat := natural? 16 [a, b, c, d]

def isHighSurrogate (unit : Nat) : Bool := 0xd800 ≤ unit && unit < 0xdc00

def isLowSurrogate (unit : Nat) : Bool := 0xdc00 ≤ unit && unit < 0xe000

def escaped? : Char → Option Char
  | '"' => some '"'
  | '\\' => some '\\'
  | '/' => some '/'
  | 'b' => some '\x08'
  | 'f' => some '\x0c'
  | 'n' => some '\n'
  | 'r' => some '\r'
  | 't' => some '\t'
  | _ => none

/-- The text a string stands for. Two surrogates make one character, and a surrogate alone makes
none. The first argument is the high surrogate that was read last. -/
def decode? (high : Option Nat) : List Char → Option (List Char)
  | [] => if high.isSome then none else some []
  | '\\' :: 'u' :: a :: b :: c :: d :: rest => do
    let unit ← unit? a b c d
    match high with
    | some first =>
      if isLowSurrogate unit then
        let code := 0x10000 + (first - 0xd800) * 0x400 + (unit - 0xdc00)
        return Char.ofNat code :: (← decode? none rest)
      else none
    | none =>
      if isHighSurrogate unit then decode? (some unit) rest
      else if isLowSurrogate unit then none
      else return Char.ofNat unit :: (← decode? none rest)
  | '\\' :: char :: rest =>
    if high.isSome then none
    else do return (← escaped? char) :: (← decode? none rest)
  | char :: rest =>
    if high.isSome then none
    else (decode? none rest).map (char :: ·)

/-- The text of what is written between quotes, if it stands for one. -/
def textOf? (body : List Char) : Option String := (decode? none body).map String.ofList

def digits? (chars : List Char) : Option (List Char × List Char) :=
  let front := chars.takeWhile Char.isDigit
  if front.isEmpty then none else some (front, chars.dropWhile Char.isDigit)

def whole? (chars : List Char) : Option (List Char × List Char) :=
  match digits? chars with
  | some ('0' :: _ :: _, _) => none
  | result => result

def fraction? : List Char → Option (List Char × List Char)
  | '.' :: rest => (digits? rest).map fun (front, rest) => ('.' :: front, rest)
  | chars => some ([], chars)

def sign (signs : List Char) : List Char → List Char × List Char
  | char :: rest => if signs.contains char then ([char], rest) else ([], char :: rest)
  | [] => ([], [])

def exponent? (chars : List Char) : Option (List Char × List Char) :=
  match chars with
  | [] => some ([], [])
  | mark :: rest =>
    if mark = 'e' ∨ mark = 'E' then
      let (sign, rest) := sign ['+', '-'] rest
      (digits? rest).map fun (front, rest) => (mark :: sign ++ front, rest)
    else some ([], chars)

def number? (chars : List Char) : Option (Json × List Char) := do
  let (sign, rest) := sign ['-'] chars
  let (whole, rest) ← whole? rest
  let (fraction, rest) ← fraction? rest
  let (exponent, rest) ← exponent? rest
  return (number (String.ofList (sign ++ whole ++ fraction ++ exponent)), rest)

def scalar? : List Char → Option (Json × List Char)
  | '"' :: rest => (stringBody? rest).map fun (body, rest) => (string (textOf? body), rest)
  | 'n' :: 'u' :: 'l' :: 'l' :: rest => some (null, rest)
  | 't' :: 'r' :: 'u' :: 'e' :: rest => some (bool true, rest)
  | 'f' :: 'a' :: 'l' :: 's' :: 'e' :: rest => some (bool false, rest)
  | chars => number? chars

def key? (chars : List Char) : Option (Option String × List Char) :=
  match skipSpace chars with
  | '"' :: rest => do
    let (key, rest) ← stringBody? rest
    match skipSpace rest with
    | ':' :: rest => return (textOf? key, rest)
    | _ => none
  | _ => none

mutual

/-- Reads one value. The first argument bounds the depth of the reading; the length of the text is
always enough. -/
def valueWithin : Nat → List Char → Option (Json × List Char)
  | 0, _ => none
  | limit + 1, chars =>
    match skipSpace chars with
    | '[' :: rest =>
      match skipSpace rest with
      | ']' :: rest => some (array [], rest)
      | rest => do
        let (items, rest) ← itemsWithin limit rest
        return (array items, rest)
    | '\x7b' :: rest =>
      match skipSpace rest with
      | '\x7d' :: rest => some (object [], rest)
      | rest => do
        let (members, rest) ← membersWithin limit rest
        return (object members, rest)
    | chars => scalar? chars

/-- Values up to the bracket that closes the array. -/
def itemsWithin : Nat → List Char → Option (List Json × List Char)
  | 0, _ => none
  | limit + 1, chars => do
    let (item, rest) ← valueWithin limit chars
    match skipSpace rest with
    | ',' :: rest =>
      let (items, rest) ← itemsWithin limit rest
      return (item :: items, rest)
    | ']' :: rest => return ([item], rest)
    | _ => none

/-- Members up to the brace that closes the object. -/
def membersWithin : Nat → List Char → Option (List (Option String × Json) × List Char)
  | 0, _ => none
  | limit + 1, chars => do
    let (key, rest) ← key? chars
    let (value, rest) ← valueWithin limit rest
    match skipSpace rest with
    | ',' :: rest =>
      let (members, rest) ← membersWithin limit rest
      return ((key, value) :: members, rest)
    | '\x7d' :: rest => return ([(key, value)], rest)
    | _ => none

end

/-- The value of a text that holds one value and nothing else. -/
def read? (text : String) : Option Json :=
  let chars := text.toList
  match valueWithin (2 * chars.length + 2) chars with
  | some (value, rest) => if (skipSpace rest).isEmpty then some value else none
  | none => none

def hexDigit (value : Nat) : Char := Nat.digitChar value

/-- A character inside a string. Only quotes, backslashes and control characters are escaped. -/
def encodeChar (char : Char) : List Char :=
  if char = '"' then ['\\', '"']
  else if char = '\\' then ['\\', '\\']
  else if char = '\x08' then ['\\', 'b']
  else if char = '\x0c' then ['\\', 'f']
  else if char = '\n' then ['\\', 'n']
  else if char = '\r' then ['\\', 'r']
  else if char = '\t' then ['\\', 't']
  else if char.toNat < 0x20 then
    ['\\', 'u', '0', '0', hexDigit (char.toNat / 16), hexDigit (char.toNat % 16)]
  else [char]

def encode (text : List Char) : List Char := text.flatMap encodeChar

/-- A string between its quotes. One that stands for no text is half a character. -/
def quoted : Option String → List Char
  | some text => '"' :: encode text.toList ++ ['"']
  | none => ['"', '\\', 'u', 'd', '8', '0', '0', '"']

def newline (depth : Nat) : List Char := '\n' :: List.replicate (2 * depth) ' '

mutual

def written (depth : Nat) : Json → List Char
  | null => ['n', 'u', 'l', 'l']
  | bool true => ['t', 'r', 'u', 'e']
  | bool false => ['f', 'a', 'l', 's', 'e']
  | number text => text.toList
  | string text => quoted text
  | array [] => ['[', ']']
  | array (item :: items) =>
    '[' :: newline (depth + 1) ++ item.written (depth + 1) ++ writtenItems (depth + 1) items ++
      newline depth ++ [']']
  | object [] => ['\x7b', '\x7d']
  | object ((key, value) :: members) =>
    '\x7b' :: newline (depth + 1) ++ quoted key ++ [':', ' '] ++ value.written (depth + 1) ++
      writtenMembers (depth + 1) members ++ newline depth ++ ['\x7d']

def writtenItems (depth : Nat) : List Json → List Char
  | [] => []
  | item :: items => ',' :: newline depth ++ item.written depth ++ writtenItems depth items

def writtenMembers (depth : Nat) : List (Option String × Json) → List Char
  | [] => []
  | (key, value) :: members =>
    ',' :: newline depth ++ quoted key ++ [':', ' '] ++ value.written depth ++
      writtenMembers depth members

end

def write (value : Json) : String := String.ofList (value.written 0)

end Json

end Lsl
