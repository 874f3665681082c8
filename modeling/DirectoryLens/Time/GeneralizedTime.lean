/-
Generalized time: a date and an hour, with what is given of minutes, seconds, fraction and zone.

* `GeneralizedTime`: the parts of such a text, as they are written;
* `GeneralizedTime.parse?`: a text cut into its parts;
* `Zone.offset`, `GeneralizedTime.instant`: the instant that the parts denote;
* `Instant.ofGeneralizedTime`, `Instant.generalizedTime`: reading and writing.
-/
import DirectoryLens.Text.Blank
import DirectoryLens.Text.Digit
import DirectoryLens.Time.Instant

namespace DirectoryLens

open Text Number Time

/-- The distance of a zone from Universal Time, as it is written. -/
structure Zone where
  sign : Char
  /-- The two digits of the hours. -/
  firstHour : Char
  secondHour : Char
  /-- The digits of the minutes, none or two. -/
  minutes : List Char

/-- The parts of a generalized time, as they are written. -/
structure GeneralizedTime where
  year : List Char
  month : List Char
  day : List Char
  hour : List Char
  minute : Option (List Char)
  second : Option (List Char)
  fraction : Option (List Char)
  /-- The zone, absent for Universal Time. -/
  zone : Option Zone

/-- Why a text denotes no instant. -/
inductive TimeFault
  /-- It is not of the form, or there is no such date, time or zone. -/
  | malformed
  /-- The two octets behind the sign of the zone end inside a character. -/
  | undividedZone
  deriving DecidableEq

namespace GeneralizedTime

/-! ### Cutting a text into its parts -/

/-- The first `n` characters, which are digits of any script, and the rest. -/
def takeDigits? (n : Nat) (s : List Char) : Option (List Char × List Char) :=
  let ds := s.take n
  if ds.length = n && ds.all isDecimalDigit then some (ds, s.drop n) else none

/-- Two digits at the head of a text, when it starts with two, and the rest. -/
def takePair (s : List Char) : Option (List Char) × List Char :=
  match takeDigits? 2 s with
  | some (ds, rest) => (some ds, rest)
  | none => (none, s)

/-- A point or comma with one to nine digits, or nothing, and the rest. -/
def takeFraction? : List Char → Option (Option (List Char) × List Char)
  | [] => some (none, [])
  | c :: s =>
    if c = '.' || c = ',' then
      let ds := s.takeWhile isDecimalDigit
      if 1 ≤ ds.length && ds.length ≤ 9 then some (some ds, s.dropWhile isDecimalDigit) else none
    else some (none, c :: s)

/-- The zone that the rest of a text is: nothing, `Z`, or a sign with two or four digits. -/
def zone? : List Char → Option (Option Zone)
  | [] => some none
  | ['Z'] => some none
  | sign :: h₁ :: h₂ :: minutes =>
    if (sign = '+' || sign = '-') && (h₁ :: h₂ :: minutes).all isDecimalDigit
        && (minutes.length = 0 || minutes.length = 2) then
      some (some ⟨sign, h₁, h₂, minutes⟩)
    else none
  | _ => none

/-- A text cut into its parts. Minutes may be absent, and seconds with them. -/
def parse? (s : List Char) : Option GeneralizedTime := do
  let (year, s) ← takeDigits? 4 s
  let (month, s) ← takeDigits? 2 s
  let (day, s) ← takeDigits? 2 s
  let (hour, s) ← takeDigits? 2 s
  let (minute, s) := takePair s
  let (second, s) := takePair s
  let (fraction, s) ← takeFraction? s
  let zone ← zone? s
  return { year, month, day, hour, minute, second, fraction, zone }

/-! ### The instant of the parts -/

/-- The nanoseconds of a fraction, its digits filled up to nine. A fraction counts only behind
seconds. -/
def nanos? (g : GeneralizedTime) : Option Nat :=
  match g.fraction with
  | none => some 0
  | some ds =>
    if g.second.isSome then readDigits? (ds ++ List.replicate (9 - ds.length) '0') else none

/-- The time as it stands, before its zone is taken off: seconds from the start of 1970, and
nanoseconds. Minutes and seconds not in ASCII digits count as zero. -/
def local? (g : GeneralizedTime) : Option (Int × Nat) := do
  let year ← readDigits? g.year
  let month ← readDigits? g.month
  let day ← readDigits? g.day
  let hour ← readDigits? g.hour
  let minute := (g.minute.bind readDigits?).getD 0
  let second := (g.second.bind readDigits?).getD 0
  let nanos ← g.nanos?
  let date : Date := ⟨year, month, day⟩
  if date.isReal && hour < 24 && minute < 60 && second < 60 then
    some (date.toDay * 86400 + (3600 * hour + 60 * minute + second : Nat), nanos)
  else none

end GeneralizedTime

/-- The seconds by which a zone is ahead of Universal Time. The hours are the two octets behind
the sign; minutes count when they are ASCII digits. A day or more is no zone. -/
def Zone.offset (z : Zone) : Except TimeFault Int :=
  if z.firstHour.utf8Size = 2 then .error .malformed
  else if z.firstHour.utf8Size ≠ 1 || z.secondHour.utf8Size ≠ 1 then .error .undividedZone
  else
    match readDigits? [z.firstHour, z.secondHour] with
    | none => .error .malformed
    | some hours =>
      let seconds := 3600 * hours + 60 * (readDigits? z.minutes).getD 0
      if 86400 ≤ seconds then .error .malformed
      else .ok (if z.sign = '-' then -(seconds : Int) else seconds)

/-- The instant that the parts denote. -/
def GeneralizedTime.instant (g : GeneralizedTime) : Except TimeFault Instant :=
  match g.local? with
  | none => .error .malformed
  | some (seconds, nanos) => do
    let offset ← match g.zone with
      | none => .ok 0
      | some z => z.offset
    match Instant.ofParts? (seconds - offset) nanos with
    | some t => .ok t
    | none => .error .malformed

namespace Instant

/-- The instant that a text denotes, blanks around it allowed. -/
def ofGeneralizedTime (s : String) : Except TimeFault Instant :=
  match GeneralizedTime.parse? (trim s.toList) with
  | some g => g.instant
  | none => .error .malformed

/-- The digits of an instant with a mark of Universal Time behind them; the fraction of its second
is not written. -/
def generalizedTime (mark : String) (t : Instant) : String :=
  String.ofList (t.compact ++ mark.toList)

end Instant

end DirectoryLens
