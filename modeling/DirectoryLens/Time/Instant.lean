/-
Instants in Universal Time.

* `Instant`: whole seconds from the start of 1970, and nanoseconds; a leap second is the second
  half of two seconds' worth of nanoseconds, behind any second;
* `Instant.ofParts?`: the instant of seconds and nanoseconds, where one is made of them;
* `Instant.clock`: the date and the time of day of an instant;
* `Instant.compact`, `Instant.timestamp`: its digits run together, and its text with marks and a
  fraction.
-/
import DirectoryLens.Number.Decimal
import DirectoryLens.Time.Calendar

namespace DirectoryLens

open Time Number

/-- The first year that has instants. -/
def Instant.minYear : Int := -262143

/-- The last year that has instants. -/
def Instant.maxYear : Int := 262142

/-- Seconds and nanoseconds that an instant may have: its year is one of those that have
instants, and its nanoseconds are two seconds' worth at most. -/
def Instant.Admissible (seconds : Int) (nanos : Nat) : Prop :=
  (daysBeforeYear Instant.minYear - epochDay) * 86400 ≤ seconds
    ∧ seconds < (daysBeforeYear (Instant.maxYear + 1) - epochDay) * 86400
    ∧ nanos < 2000000000

instance (seconds : Int) (nanos : Nat) : Decidable (Instant.Admissible seconds nanos) := by
  unfold Instant.Admissible; infer_instance

/-- An instant: seconds from the start of 1970, and nanoseconds. -/
structure Instant where
  seconds : Int
  nanos : Nat
  admissible : Instant.Admissible seconds nanos
  deriving DecidableEq

namespace Instant

/-- A second's worth of nanoseconds and more stands behind a minute's last second only. -/
def LeapsAtMinute (seconds : Int) (nanos : Nat) : Prop :=
  nanos < 1000000000 ∨ seconds % 60 = 59

instance (seconds : Int) (nanos : Nat) : Decidable (LeapsAtMinute seconds nanos) := by
  unfold LeapsAtMinute; infer_instance

/-- The instant of seconds and nanoseconds. No leap second is made within a minute, though there
are instants that have one there. -/
def ofParts? (seconds : Int) (nanos : Nat) : Option Instant :=
  if h : Admissible seconds nanos ∧ LeapsAtMinute seconds nanos then
    some ⟨seconds, nanos, h.1⟩
  else none

/-- The instant lies within a leap second. -/
def isLeap (t : Instant) : Bool :=
  1000000000 ≤ t.nanos

/-- A date and a time of day. -/
structure Clock where
  date : Date
  hour : Nat
  minute : Nat
  second : Nat
  deriving DecidableEq

/-- The date and the time of day, a leap second counting one more than the second it follows. -/
def clock (t : Instant) : Clock :=
  let rest := (t.seconds % 86400).toNat
  { date := Date.ofDay (t.seconds / 86400)
    hour := rest / 3600
    minute := rest / 60 % 60
    second := rest % 60 + (if t.isLeap then 1 else 0) }

/-! ### Text -/

/-- A number with zeros before it up to a width. -/
def padded (width n : Nat) : List Char :=
  List.replicate (width - (digits n).length) '0' ++ digits n

/-- A year: four digits from zero to 9999, and signed beyond. -/
def yearChars (year : Int) : List Char :=
  if 0 ≤ year ∧ year ≤ 9999 then padded 4 year.toNat
  else (if year < 0 then '-' else '+') :: padded 4 year.natAbs

/-- The digits of the date and the time of day, run together. -/
def compact (t : Instant) : List Char :=
  let c := t.clock
  yearChars c.date.year ++ padded 2 c.date.month ++ padded 2 c.date.day
    ++ padded 2 c.hour ++ padded 2 c.minute ++ padded 2 c.second

/-- The fraction of a second, in the fewest groups of three digits. -/
def fractionChars (nanos : Nat) : List Char :=
  if nanos = 0 then []
  else if nanos % 1000000 = 0 then '.' :: padded 3 (nanos / 1000000)
  else if nanos % 1000 = 0 then '.' :: padded 6 (nanos / 1000)
  else '.' :: padded 9 nanos

/-- The date, the time of day and the fraction, with marks between them. -/
def timestamp (t : Instant) : String :=
  let c := t.clock
  String.ofList <|
    yearChars c.date.year ++ '-' :: padded 2 c.date.month ++ '-' :: padded 2 c.date.day
      ++ 'T' :: padded 2 c.hour ++ ':' :: padded 2 c.minute ++ ':' :: padded 2 c.second
      ++ fractionChars (t.nanos % 1000000000) ++ ['Z']

end Instant

end DirectoryLens
