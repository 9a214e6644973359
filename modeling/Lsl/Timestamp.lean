/-!
Moments as calendar dates: seconds since the start of 1970, in universal time without leap seconds.
-/

set_option autoImplicit false

namespace Lsl

/-- Every fourth year is a leap year, except the centuries that four hundred does not divide. -/
def isLeapYear (year : Nat) : Bool :=
  (year % 4 == 0 && year % 100 != 0) || year % 400 == 0

def daysInYear (year : Nat) : Nat := if isLeapYear year then 366 else 365

def monthLengths (year : Nat) : List Nat :=
  [31, if isLeapYear year then 29 else 28, 31, 30, 31, 30, 31, 31, 30, 31, 30, 31]

structure Moment where
  year : Nat
  month : Nat
  day : Nat
  hour : Nat
  minute : Nat
  second : Nat
deriving DecidableEq, Inhabited, Repr

namespace Moment

/-- Takes whole years off a number of days, at most as many as the first argument says: the year
that is reached, and the days left over. -/
def passYears : Nat → Nat → Nat → Nat × Nat
  | 0, year, days => (year, days)
  | limit + 1, year, days =>
    if days < daysInYear year then (year, days)
    else passYears limit (year + 1) (days - daysInYear year)

/-- Takes whole months off a number of days. -/
def passMonths : List Nat → Nat → Nat → Nat × Nat
  | [], month, days => (month, days)
  | length :: rest, month, days =>
    if days < length then (month, days) else passMonths rest (month + 1) (days - length)

/-- The days of any four hundred years in a row. -/
def cycleDays : Nat := 146097

def yearOfDay (days : Nat) : Nat × Nat :=
  passYears 400 (1970 + 400 * (days / cycleDays)) (days % cycleDays)

def ofSeconds (seconds : Nat) : Moment :=
  let (year, dayOfYear) := yearOfDay (seconds / 86400)
  let (month, dayOfMonth) := passMonths (monthLengths year) 1 dayOfYear
  let time := seconds % 86400
  ⟨year, month, dayOfMonth + 1, time / 3600, time % 3600 / 60, time % 60⟩

def padded (width number : Nat) : String :=
  let digits := toString number
  String.ofList (List.replicate (width - digits.length) '0') ++ digits

def text (moment : Moment) : String :=
  padded 4 moment.year ++ "-" ++ padded 2 moment.month ++ "-" ++ padded 2 moment.day ++ " " ++
    padded 2 moment.hour ++ ":" ++ padded 2 moment.minute ++ ":" ++ padded 2 moment.second

end Moment

end Lsl
