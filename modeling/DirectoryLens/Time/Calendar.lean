/-
The Gregorian calendar, carried on without end in both directions.

* `isLeap`, `daysInMonth`, `monthLengths`: the lengths of years and months;
* `daysBeforeYear`: the days between the start of year zero and the start of a year;
* `Date`: a year, a month and a day;
* `Date.toDay`, `Date.ofDay`: dates as days counted from the first of January 1970.
-/

namespace DirectoryLens.Time

/-- A year of 366 days. -/
def isLeap (year : Int) : Bool :=
  year % 4 = 0 && (year % 100 ≠ 0 || year % 400 = 0)

/-- The lengths of the twelve months of a year. -/
def monthLengths (year : Int) : List Nat :=
  [31, if isLeap year then 29 else 28, 31, 30, 31, 30, 31, 31, 30, 31, 30, 31]

/-- The length of a month, which is zero for a month that the year does not have. -/
def daysInMonth (year : Int) (month : Nat) : Nat :=
  if month = 0 then 0 else (monthLengths year).getD (month - 1) 0

/-- The number of days from the start of year zero to the start of a year, negative for the years
before it. -/
def daysBeforeYear (year : Int) : Int :=
  365 * year + (year + 3) / 4 - (year + 99) / 100 + (year + 399) / 400

/-- The day, counted from the start of year zero, on which the count of days is zero. -/
def epochDay : Int :=
  daysBeforeYear 1970

/-- A date. -/
structure Date where
  year : Int
  month : Nat
  day : Nat
  deriving DecidableEq

/-- A date that the calendar has. -/
def Date.isReal (d : Date) : Bool :=
  1 ≤ d.month && d.month ≤ 12 && 1 ≤ d.day && d.day ≤ daysInMonth d.year d.month

/-- The number of days in the first months of a list. -/
def daysInFirst : Nat → List Nat → Nat
  | count + 1, length :: lengths => length + daysInFirst count lengths
  | _, _ => 0

/-- The number of days from the first of January 1970 to a date. -/
def Date.toDay (d : Date) : Int :=
  daysBeforeYear d.year + daysInFirst (d.month - 1) (monthLengths d.year) + d.day - 1 - epochDay

/-- The year of a day counted from the start of year zero. -/
def yearOfDay (day : Int) : Int :=
  let guess := 400 * day / 146097
  if day < daysBeforeYear guess then guess - 1
  else if daysBeforeYear (guess + 1) ≤ day then guess + 1
  else guess

/-- The month, counted from `month`, in which a day of the year falls, and its place there. -/
def monthOfDay (month : Nat) : List Nat → Nat → Nat × Nat
  | [], rest => (month, rest)
  | length :: lengths, rest =>
    if rest < length then (month, rest) else monthOfDay (month + 1) lengths (rest - length)

/-- The date of a day counted from the first of January 1970. -/
def Date.ofDay (day : Int) : Date :=
  let day := day + epochDay
  let year := yearOfDay day
  let (month, rest) := monthOfDay 1 (monthLengths year) (day - daysBeforeYear year).toNat
  ⟨year, month, rest + 1⟩

end DirectoryLens.Time
