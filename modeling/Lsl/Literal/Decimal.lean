/-!
Decimal numbers as they are written, and where they lie among the binary floating point numbers. A
number is first rounded to double precision, to the nearest value and to the even one of two, and
then compared; the comparisons here are made on the exact value against the bounds at which that
rounding changes its result.
-/

set_option autoImplicit false

namespace Lsl

def digitValue? (base : Nat) (char : Char) : Option Nat :=
  let value? : Option Nat :=
    if char.isDigit then some (char.toNat - 48)
    else if 'a' ≤ char ∧ char ≤ 'f' then some (char.toNat - 87)
    else if 'A' ≤ char ∧ char ≤ 'F' then some (char.toNat - 55)
    else none
  value?.filter (· < base)

def naturalFrom (base : Nat) (value : Nat) : List Char → Option Nat
  | [] => some value
  | char :: rest =>
    match digitValue? base char with
    | some digit => naturalFrom base (value * base + digit) rest
    | none => none

/-- The number a list of digits writes. There is at least one digit and nothing else. -/
def natural? (base : Nat) (chars : List Char) : Option Nat :=
  if chars.isEmpty then none else naturalFrom base 0 chars

def powerOfTwo (exponent : Nat) : Nat := Nat.pow 2 exponent

/-- A size `digits * 10 ^ exponent`. -/
structure Magnitude where
  digits : Nat
  exponent : Int
deriving DecidableEq, Inhabited, Repr

namespace Magnitude

/-- The place of the leading digit: the size is below `10 ^ scale`, and not below a tenth of it. -/
def scale (size : Magnitude) : Int := (Nat.toDigits 10 size.digits).length + size.exponent

/-- No number outside these scales comes near a bound. -/
def isHuge (size : Magnitude) : Bool := size.digits != 0 && size.scale > 400

def isTiny (size : Magnitude) : Bool := size.digits == 0 || size.scale < -400

def above (size : Magnitude) (numerator denominator : Nat) : Bool :=
  if size.exponent ≥ 0 then
    size.digits * Nat.pow 10 size.exponent.toNat * denominator > numerator
  else size.digits * denominator > numerator * Nat.pow 10 (-size.exponent).toNat

def below (size : Magnitude) (numerator denominator : Nat) : Bool :=
  if size.exponent ≥ 0 then
    size.digits * Nat.pow 10 size.exponent.toNat * denominator < numerator
  else size.digits * denominator < numerator * Nat.pow 10 (-size.exponent).toNat

/-- Above the largest single precision number, `(2 ^ 24 - 1) * 2 ^ 104`. -/
def exceedsSingle (size : Magnitude) : Bool :=
  let bound := (powerOfTwo 24 - 1) * powerOfTwo 104 + powerOfTwo 74
  !size.isTiny && (size.isHuge || size.above bound 1)

def exceedsDouble (size : Magnitude) : Bool :=
  !size.isTiny && (size.isHuge || !size.below (powerOfTwo 1024 - powerOfTwo 970) 1)

def vanishes (size : Magnitude) : Bool :=
  size.isTiny || (!size.isHuge && !size.above 1 (powerOfTwo 1075))

def belowSingle (size : Magnitude) : Bool :=
  size.isTiny || (!size.isHuge && size.below (powerOfTwo 54 - 1) (powerOfTwo 203))

end Magnitude

structure Decimal where
  negative : Bool
  magnitude : Magnitude
deriving DecidableEq, Inhabited, Repr

namespace Decimal

inductive Reading where
  | nan
  | infinite
  | finite (value : Decimal)
deriving DecidableEq, Inhabited, Repr

def exponent? : List Char → Option Int
  | [] => some 0
  | mark :: rest =>
    if mark == 'e' || mark == 'E' then
      match rest with
      | '-' :: digits => (natural? 10 digits).map fun value => -(value : Int)
      | '+' :: digits => (natural? 10 digits).map fun value => (value : Int)
      | _ => (natural? 10 rest).map fun value => (value : Int)
    else none

/-- A number without a sign: digits around at most one point, then an exponent. -/
def magnitude? (chars : List Char) : Option Magnitude :=
  let whole := chars.takeWhile Char.isDigit
  let rest := chars.dropWhile Char.isDigit
  let fraction := match rest with
    | '.' :: digits => digits.takeWhile Char.isDigit
    | _ => []
  let rest := match rest with
    | '.' :: digits => digits.dropWhile Char.isDigit
    | _ => rest
  match natural? 10 (whole ++ fraction), exponent? rest with
  | some digits, some exponent => some ⟨digits, exponent - fraction.length⟩
  | _, _ => none

/-- The number a text writes, as decimal text or as one of the words for no number and for
infinity, in any case. -/
def read? (chars : List Char) : Option Reading :=
  let (negative, body) := match chars with
    | '-' :: rest => (true, rest)
    | '+' :: rest => (false, rest)
    | _ => (false, chars)
  match String.ofList (body.map Char.toLower) with
  | "nan" => some .nan
  | "inf" => some .infinite
  | "infinity" => some .infinite
  | _ => (magnitude? body).map fun magnitude => .finite ⟨negative, magnitude⟩

end Decimal

end Lsl
