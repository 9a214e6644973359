import Lsl.Literal.Decimal

/-!
The values written in a script: what a string literal stands for, how it is written again in
generated code, and which numbers fit the thirty-two bits they have at run time.
-/

set_option autoImplicit false

namespace Lsl.Literal

/-- How a number literal relates to the range of its type. -/
inductive Fit where
  | fits
  | overflow
  | underflow
deriving DecidableEq, Inhabited, Repr

def decodeChars : List Char → List Char
  | '\\' :: 'n' :: rest => '\n' :: decodeChars rest
  | '\\' :: 't' :: rest => ' ' :: ' ' :: ' ' :: ' ' :: decodeChars rest
  | '\\' :: char :: rest => char :: decodeChars rest
  | char :: rest => char :: decodeChars rest
  | [] => []

/-- The text between two quotes; text that is not quoted stands for itself. -/
def unquoted (chars : List Char) : List Char :=
  match chars with
  | '"' :: rest => if rest.getLast? = some '"' then rest.dropLast else chars
  | _ => chars

/-- The value of a string literal. A tab is four spaces, and an escape without a meaning of its own
gives the escaped character. -/
def decodeString (raw : String) : String := String.ofList (decodeChars (unquoted raw.toList))

def encodeChar (char : Char) : List Char :=
  if char = '\\' then ['\\', '\\']
  else if char = '"' then ['\\', '"']
  else if char = '\n' then ['\\', 'n']
  else if char = '\r' then ['\\', 'r']
  else if char = '\t' then ['\\', 't']
  else if char.toNat = 0 then ['\\', '0']
  else [char]

def encodeString (value : String) : String :=
  String.ofList (['"'] ++ value.toList.flatMap encodeChar ++ ['"'])

def signed? (chars : List Char) : Option (Bool × Nat) :=
  match chars with
  | '-' :: digits => (natural? 10 digits).map fun value => (true, value)
  | '+' :: digits => (natural? 10 digits).map fun value => (false, value)
  | _ => (natural? 10 chars).map fun value => (false, value)

/-- Integers lie between -2147483648 and 2147483647. The sign in front of a script's literal is an
operator and not part of it. -/
def integerFit (raw : String) : Fit :=
  match signed? raw.toList with
  | some (true, value) => if value ≤ 2147483648 then .fits else .overflow
  | some (false, value) => if value ≤ 2147483647 then .fits else .overflow
  | none => .overflow

/-- The characters behind every leading copy of a two-character mark. -/
def dropMarks (first second : Char) : List Char → List Char
  | a :: b :: rest =>
    if a = first ∧ b = second then dropMarks first second rest else a :: b :: rest
  | chars => chars

/-- Hexadecimal literals wrap around in thirty-two bits, so only wider values overflow. -/
def hexFit (raw : String) : Fit :=
  let digits := dropMarks '0' 'X' (dropMarks '0' 'x' raw.toList)
  let digits := match digits with
    | '+' :: rest => rest
    | _ => digits
  match natural? 16 digits with
  | some value => if value < powerOfTwo 32 then .fits else .overflow
  | none => .overflow

def isFloatSuffix (char : Char) : Bool := char == 'f' || char == 'F'

def floatBody (chars : List Char) : List Char := (chars.reverse.dropWhile isFloatSuffix).reverse

/-- Floats have single precision: a value too large is infinite and one too small is zero. Text
that is no number counts as too large, and a negative number as too small. -/
def floatFit (raw : String) : Fit :=
  match Decimal.read? (floatBody raw.toList) with
  | none => .overflow
  | some .nan => .fits
  | some .infinite => .overflow
  | some (.finite value) =>
    if value.magnitude.exceedsSingle && !value.negative then .overflow
    else if value.magnitude.exceedsDouble then .overflow
    else if value.magnitude.vanishes then .fits
    else if value.negative || value.magnitude.belowSingle then .underflow
    else .fits

def isExponentMark (char : Char) : Bool := char == 'e' || char == 'E'

def fullMantissa (mantissa : List Char) : List Char :=
  let mantissa := if mantissa.head? = some '.' then '0' :: mantissa else mantissa
  let mantissa := if mantissa.getLast? = some '.' then mantissa ++ ['0'] else mantissa
  if mantissa.contains '.' then mantissa else mantissa ++ ['.', '0']

/-- A float literal as generated code writes it: without suffix and with a full mantissa. -/
def formatFloat (raw : String) : String :=
  let body := floatBody raw.toList
  let mantissa := body.takeWhile (!isExponentMark ·)
  String.ofList (fullMantissa mantissa ++ body.dropWhile (!isExponentMark ·))

end Lsl.Literal
