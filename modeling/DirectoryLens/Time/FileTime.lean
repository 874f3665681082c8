/-
File times: counts of 100 nanoseconds from the start of 1601.

* `FileTime.isNever`: the two counts that stand for no time;
* `Instant.ofFileTime?`, `Instant.fileTime?`: instants from counts, and back.
-/
import DirectoryLens.Time.Instant

namespace DirectoryLens

namespace FileTime

/-- The counts in a second. -/
def ticksPerSecond : Int := 10000000

/-- The seconds from the start of 1601 to the start of 1970. -/
def epochSeconds : Int := 11644473600

/-- Zero and the greatest count stand for no time. -/
def isNever (ticks : Int64) : Bool :=
  ticks.toInt = 0 || ticks.toInt = 0x7FFF_FFFF_FFFF_FFFF

end FileTime

namespace Instant

open FileTime

/-- The instant of a count. -/
def ofFileTime? (ticks : Int64) : Option Instant :=
  ofParts? (ticks.toInt / ticksPerSecond - epochSeconds)
    (ticks.toInt % ticksPerSecond * 100).toNat

/-- The count of an instant, less what it has beyond 100 nanoseconds. The product of its seconds
has to fit sixty-four bits, and so has the count. -/
def fileTime? (t : Instant) : Option Int64 := do
  let whole ← Number.int64? ((t.seconds + epochSeconds) * ticksPerSecond)
  Number.int64? (whole.toInt + (t.nanos / 100 : Nat))

end Instant

end DirectoryLens
