/-
File times and the instants that they count.

* `Instant.elapsed`, `Instant.ticks`: the nanoseconds from the start of 1601 to an instant, and its
  counts of 100 of them;
* `fileTime?_eq_some_iff`, `fileTime?_eq_none_iff`: the count of an instant is its ticks, where the
  product of its whole seconds and the ticks fit sixty-four bits;
* `ofFileTime?_eq_some_iff`, `exists_ofFileTime?`: every count has an instant, the one of so many
  ticks that has nothing beyond them;
* `Instant.atTick`, `ofFileTime?_of_fileTime?`: an instant less what it has beyond 100 nanoseconds
  is what its count leads back to;
* `Instant.NotAfter`, `ticks_le_ticks`, `ticks_lt_ticks`: ticks are ordered as the instants are;
* `ofFileTimeWithin?_eq`: no number on the way from a count to its instant overflows.
-/
import Mathlib.Tactic
import DirectoryLens.Time.FileTime
import DirectoryLens.Proofs.Number.Int64
import DirectoryLens.Proofs.Time.GeneralizedTime

namespace DirectoryLens.Instant

open Number FileTime

variable {n : Int64} {t u : Instant}

/-! ### Ticks -/

/-- The nanoseconds from the start of 1601 to an instant. -/
def elapsed (t : Instant) : Int :=
  (t.seconds + epochSeconds) * 1000000000 + t.nanos

/-- The counts of 100 nanoseconds from the start of 1601 to an instant, rounded down. -/
def ticks (t : Instant) : Int :=
  t.elapsed / 100

/-- The counts of the whole seconds of an instant. -/
def wholeTicks (t : Instant) : Int :=
  (t.seconds + epochSeconds) * ticksPerSecond

/-- The ticks of an instant are those of its whole seconds and those of its nanoseconds. -/
lemma ticks_eq (t : Instant) : t.ticks = t.wholeTicks + (t.nanos / 100 : Nat) := by
  rw [ticks, elapsed, wholeTicks, ticksPerSecond]
  omega

/-- Outside leap seconds nanoseconds are less than a second. -/
lemma nanos_lt (h : t.isLeap = false) : t.nanos < 1000000000 :=
  Nat.lt_of_not_le (of_decide_eq_false h)

/-- The seconds that instants have, in numbers. -/
lemma admissible_iff {seconds : Int} {nanos : Nat} : Admissible seconds nanos
    ↔ -8334601228800 ≤ seconds ∧ seconds < 8210266876800 ∧ nanos < 2000000000 := by
  have hstart : (Time.daysBeforeYear minYear - Time.epochDay) * 86400 = -8334601228800 := rfl
  have hend : (Time.daysBeforeYear (maxYear + 1) - Time.epochDay) * 86400 = 8210266876800 := rfl
  rw [Admissible, hstart, hend]

/-- The seconds of an instant from the start of 1601 fit sixty-four bits. -/
lemma fits_seconds (t : Instant) : Fits (t.seconds + epochSeconds) := by
  obtain ⟨hstart, hend, -⟩ := admissible_iff.mp t.admissible
  rw [Fits, epochSeconds]
  omega

/-- The count of an instant is its ticks, where these and those of its whole seconds fit. -/
lemma fileTime?_eq_some_iff : t.fileTime? = some n ↔ Fits t.wholeTicks ∧ n.toInt = t.ticks := by
  rw [fileTime?, ticks_eq, ← wholeTicks]
  simp only [Option.bind_eq_bind, Option.bind_eq_some_iff, int64?_eq_some_iff]
  constructor
  · rintro ⟨whole, hwhole, hn⟩
    rw [← hwhole]
    exact ⟨fits_toInt whole, hn⟩
  · rintro ⟨hfits, hn⟩
    obtain ⟨whole, -, hwhole⟩ := hfits.exists_int64?
    exact ⟨whole, hwhole, hn.trans (by rw [hwhole])⟩

/-- An instant has no count where its ticks, or those of its whole seconds, do not fit. -/
lemma fileTime?_eq_none_iff : t.fileTime? = none ↔ ¬ Fits t.wholeTicks ∨ ¬ Fits t.ticks := by
  rw [← not_and_or, Option.eq_none_iff_forall_ne_some]
  constructor
  · rintro hnone ⟨hwhole, hticks⟩
    obtain ⟨n, -, hn⟩ := hticks.exists_int64?
    exact hnone n (fileTime?_eq_some_iff.mpr ⟨hwhole, hn⟩)
  · intro hfits n hn
    obtain ⟨hwhole, hticks⟩ := fileTime?_eq_some_iff.mp hn
    exact hfits ⟨hwhole, hticks ▸ fits_toInt n⟩

/-- What a count has beyond whole seconds is less than one. -/
lemma rest_lt (n : Int64) : (n.toInt % ticksPerSecond * 100).toNat < 1000000000 := by
  rw [ticksPerSecond]
  omega

/-- An instant is that of a count when it has so many ticks, nothing beyond them, and lies outside
leap seconds. -/
lemma ofFileTime?_eq_some_iff :
    ofFileTime? n = some t ↔ t.ticks = n.toInt ∧ t.nanos % 100 = 0 ∧ t.isLeap = false := by
  rw [ofFileTime?, GeneralizedTime.ofParts?_eq_some_iff (rest_lt n), ticks_eq, wholeTicks, isLeap,
    decide_eq_false_iff_not, ticksPerSecond, epochSeconds]
  omega

/-- Every count has an instant. -/
lemma exists_ofFileTime? (n : Int64) : ∃ t, ofFileTime? n = some t := by
  obtain ⟨hlow, hhigh⟩ := fits_toInt n
  have hadmissible : Admissible (n.toInt / ticksPerSecond - epochSeconds)
      (n.toInt % ticksPerSecond * 100).toNat := by
    rw [admissible_iff, ticksPerSecond, epochSeconds]
    omega
  exact ⟨⟨_, _, hadmissible⟩,
    (GeneralizedTime.ofParts?_eq_some_iff (rest_lt n)).mpr ⟨rfl, rfl⟩⟩

/-! ### There and back -/

/-- An instant less what it has beyond 100 nanoseconds. -/
def atTick (t : Instant) (h : t.isLeap = false) : Instant where
  seconds := t.seconds
  nanos := t.nanos / 100 * 100
  admissible := ⟨t.admissible.1, t.admissible.2.1, by have := nanos_lt h; omega⟩

/-- What the count of an instant leads back to is the instant, less what it has beyond 100
nanoseconds. -/
lemma ofFileTime?_of_fileTime? (h : t.isLeap = false) (hn : t.fileTime? = some n) :
    ofFileTime? n = some (t.atTick h) := by
  obtain ⟨-, hticks⟩ := fileTime?_eq_some_iff.mp hn
  have hshort := nanos_lt h
  rw [ofFileTime?_eq_some_iff, hticks, ticks_eq, ticks_eq, wholeTicks, wholeTicks, isLeap,
    decide_eq_false_iff_not]
  simp only [atTick]
  omega

/-- The counts of the whole seconds of a count fit unless it is one of the least. -/
lemma fits_wholeTicks_iff (hn : ofFileTime? n = some t) :
    Fits t.wholeTicks ↔ -9223372036850000000 ≤ n.toInt := by
  obtain ⟨hlow, hhigh⟩ := fits_toInt n
  obtain ⟨hticks, -, hleap⟩ := ofFileTime?_eq_some_iff.mp hn
  have hshort := nanos_lt hleap
  rw [ticks_eq, wholeTicks, ticksPerSecond] at hticks
  rw [Fits, wholeTicks, ticksPerSecond]
  omega

/-- The instant of a count has the count, or none. -/
lemma fileTime?_of_ofFileTime? (hn : ofFileTime? n = some t) :
    t.fileTime? = if -9223372036850000000 ≤ n.toInt then some n else none := by
  have hfits := fits_wholeTicks_iff hn
  obtain ⟨hticks, -, -⟩ := ofFileTime?_eq_some_iff.mp hn
  split_ifs with hlarge
  · exact fileTime?_eq_some_iff.mpr ⟨hfits.mpr hlarge, hticks.symm⟩
  · exact fileTime?_eq_none_iff.mpr (.inl (mt hfits.mp hlarge))

/-! ### Order -/

/-- An instant stands before another, or is the same. -/
def NotAfter (t u : Instant) : Prop :=
  t.seconds < u.seconds ∨ (t.seconds = u.seconds ∧ t.nanos ≤ u.nanos)

/-- Ticks are ordered as the instants are. -/
lemma ticks_le_ticks (ht : t.isLeap = false) (h : t.NotAfter u) : t.ticks ≤ u.ticks := by
  have hshort := nanos_lt ht
  rw [NotAfter] at h
  rw [ticks, ticks, elapsed, elapsed]
  omega

/-- Instants that are 100 nanoseconds apart have different ticks. -/
lemma ticks_lt_ticks (h : t.elapsed + 100 ≤ u.elapsed) : t.ticks < u.ticks := by
  rw [ticks, ticks]
  omega

/-! ### Numbers on the way -/

/-- The instant of a count, where every number on the way to it is held in sixty-four bits, and the
nanoseconds in thirty-two. -/
def ofFileTimeWithin? (n : Int64) : Option Instant := do
  let whole ← int64? (n.toInt / ticksPerSecond)
  let seconds ← int64? (whole.toInt - epochSeconds)
  let rest ← int64? (n.toInt % ticksPerSecond)
  let nanos ← int64? (rest.toInt * 100)
  if 0 ≤ nanos.toInt ∧ nanos.toInt < 0x1_0000_0000 then
    ofParts? seconds.toInt nanos.toInt.toNat
  else none

/-- No number on the way from a count to its instant overflows. -/
lemma ofFileTimeWithin?_eq (n : Int64) : ofFileTimeWithin? n = ofFileTime? n := by
  obtain ⟨hlow, hhigh⟩ := fits_toInt n
  have hfits : Fits (n.toInt / ticksPerSecond) ∧ Fits (n.toInt / ticksPerSecond - epochSeconds)
      ∧ Fits (n.toInt % ticksPerSecond) ∧ Fits (n.toInt % ticksPerSecond * 100) := by
    simp only [Fits, ticksPerSecond, epochSeconds]
    omega
  have hsmall : 0 ≤ n.toInt % ticksPerSecond * 100
      ∧ n.toInt % ticksPerSecond * 100 < 0x1_0000_0000 := by
    rw [ticksPerSecond]
    omega
  obtain ⟨whole, hwhole, hwholeInt⟩ := hfits.1.exists_int64?
  obtain ⟨seconds, hseconds, hsecondsInt⟩ := hfits.2.1.exists_int64?
  obtain ⟨rest, hrest, hrestInt⟩ := hfits.2.2.1.exists_int64?
  obtain ⟨nanos, hnanos, hnanosInt⟩ := hfits.2.2.2.exists_int64?
  simp only [ofFileTimeWithin?, hwhole, hwholeInt, hseconds, hsecondsInt, hrest, hrestInt, hnanos,
    hnanosInt, Option.bind_eq_bind, Option.bind_some, if_pos hsmall]
  rfl

end DirectoryLens.Instant
