/-
File times as they are converted.

* `fileTime_toDirectory_eq_ok_iff`, `fileTime_fromDirectory_decimal`: what is written of an instant,
  and what the decimal text of a count is read as;
* `fileTime_writeBack`: every count that stands for a time is read, and which of them are written
  back;
* `fileTime_order`: counts are ordered as the instants that they are written of, and read back as
  these less what they have beyond 100 nanoseconds.
-/
import DirectoryLens.Converter.Moment
import DirectoryLens.Proofs.Time.FileTime

namespace DirectoryLens.Converter

open Number Text FileTime Instant

variable {n : Int64} {t : Instant}

/-! ### Writing -/

/-- An instant that has a count is written as its decimal text. -/
lemma fileTime_toDirectory_of_some (h : t.fileTime? = some n) :
    fileTime.toDirectory (.dateTime t) = .ok (.text (decimal n.toInt)) := by
  simp only [fileTime, h]

/-- An instant that has none is refused. -/
lemma fileTime_toDirectory_of_none (h : t.fileTime? = none) :
    fileTime.toDirectory (.dateTime t)
      = .error (.conversionFailed "windows_time" .dateTimeOutOfRange) := by
  simp only [fileTime, h]

/-- An instant is written as the decimal text of a count just when it has that count. -/
lemma fileTime_toDirectory_eq_ok_iff {raw : RawValue} :
    fileTime.toDirectory (.dateTime t) = .ok raw
      ↔ ∃ n, t.fileTime? = some n ∧ raw = .text (decimal n.toInt) := by
  cases hcount : t.fileTime? with
  | none =>
      rw [fileTime_toDirectory_of_none hcount]
      exact iff_of_false nofun (by simp)
  | some n =>
      rw [fileTime_toDirectory_of_some hcount, Except.ok.injEq]
      simp [eq_comm]

/-! ### Reading -/

/-- The decimal text of a count is read as null when the count stands for no time, and as its
instant otherwise. -/
lemma fileTime_fromDirectory_decimal (hn : ofFileTime? n = some t) :
    fileTime.fromDirectory (.text (decimal n.toInt))
      = .ok (if isNever n then .null else .dateTime t) := by
  have hread : readInt64? (trim (decimal n.toInt).toList) = some n := by simp
  simp only [fileTime, requireText, RawValue.text?, hread, expectForm, Bind.bind, Except.bind, hn]
  split_ifs <;> rfl

/-- The counts that stand for no time are zero and the greatest one. -/
lemma isNever_iff : isNever n = true ↔ n = 0 ∨ n = Int64.maxValue := by
  have hzero : (0 : Int64).toInt = 0 := rfl
  have hmax : Int64.maxValue.toInt = 0x7FFF_FFFF_FFFF_FFFF := rfl
  rw [isNever, Bool.or_eq_true, decide_eq_true_eq, decide_eq_true_eq, ← hzero, ← hmax,
    Int64.toInt_inj, Int64.toInt_inj]

/-- A count that stands for a time is read as its instant. -/
lemma fileTime_fromDirectory_of_ne (hzero : n ≠ 0) (hmax : n ≠ Int64.maxValue)
    (hn : ofFileTime? n = some t) :
    fileTime.fromDirectory (.text (decimal n.toInt)) = .ok (.dateTime t) := by
  rw [fileTime_fromDirectory_decimal hn, if_neg (by simp [isNever_iff, hzero, hmax])]

/-- The instant of a count is written as the count just when the counts of its whole seconds fit,
and refused otherwise. -/
lemma fileTime_toDirectory_of_count (hn : ofFileTime? n = some t) :
    (fileTime.toDirectory (.dateTime t) = .ok (.text (decimal n.toInt))
        ↔ -9223372036850000000 ≤ n.toInt)
      ∧ (n.toInt < -9223372036850000000 → fileTime.toDirectory (.dateTime t)
        = .error (.conversionFailed "windows_time" .dateTimeOutOfRange)) := by
  have hcount := fileTime?_of_ofFileTime? hn
  split_ifs at hcount with hlarge
  · exact ⟨iff_of_true (fileTime_toDirectory_of_some hcount) hlarge,
      fun hsmall => absurd hlarge (Int.not_le.mpr hsmall)⟩
  · rw [fileTime_toDirectory_of_none hcount]
    exact ⟨iff_of_false nofun hlarge, fun _ => rfl⟩

/-! ### There and back -/

/-- **Which counts are written back.** Every count that stands for a time is read as an instant, no
number on the way overflowing, and nor do the seconds from which that is written. The instant is
written as the count, unless the count is one of the 4775808 least: there the counts of its whole
seconds leave sixty-four bits, though the count does not, and it is refused. -/
theorem fileTime_writeBack (n : Int64) (hzero : n ≠ 0) (hmax : n ≠ Int64.maxValue) :
    ∃ t : Instant, fileTime.fromDirectory (.text (decimal n.toInt)) = .ok (.dateTime t)
      ∧ ofFileTimeWithin? n = some t
      ∧ Fits (t.seconds + epochSeconds)
      ∧ (fileTime.toDirectory (.dateTime t) = .ok (.text (decimal n.toInt))
        ↔ -9223372036850000000 ≤ n.toInt)
      ∧ (n.toInt < -9223372036850000000 → fileTime.toDirectory (.dateTime t)
        = .error (.conversionFailed "windows_time" .dateTimeOutOfRange)) := by
  obtain ⟨t, ht⟩ := exists_ofFileTime? n
  obtain ⟨hwritten, hrefused⟩ := fileTime_toDirectory_of_count ht
  exact ⟨t, fileTime_fromDirectory_of_ne hzero hmax ht, (ofFileTimeWithin?_eq n).trans ht,
    t.fits_seconds, hwritten, hrefused⟩

/-- A count before 1601 is read and written back, and the least count is read and not written. -/
theorem fileTime_writeBack_beforeEpoch :
    (∃ t : Instant, fileTime.fromDirectory (.text "-1") = .ok (.dateTime t)
        ∧ fileTime.toDirectory (.dateTime t) = .ok (.text "-1"))
      ∧ ∃ t : Instant,
        fileTime.fromDirectory (.text (decimal Int64.minValue.toInt)) = .ok (.dateTime t)
        ∧ fileTime.toDirectory (.dateTime t)
          = .error (.conversionFailed "windows_time" .dateTimeOutOfRange) := by
  obtain ⟨t, hread, -, -, hwritten, -⟩ := fileTime_writeBack (-1) (by decide) (by decide)
  obtain ⟨u, hread', -, -, -, hrefused⟩ :=
    fileTime_writeBack Int64.minValue (by decide) (by decide)
  exact ⟨⟨t, hread, hwritten.mpr (by decide)⟩, u, hread', hrefused (by decide)⟩

/-- Not every count that stands for a time is written back: the least one is not. -/
theorem not_every_count_written_back :
    ¬ ∀ n : Int64, n ≠ 0 → n ≠ Int64.maxValue →
      ∃ t : Instant, fileTime.fromDirectory (.text (decimal n.toInt)) = .ok (.dateTime t)
        ∧ fileTime.toDirectory (.dateTime t) = .ok (.text (decimal n.toInt)) := by
  intro h
  obtain ⟨t, hread, hwritten⟩ := h Int64.minValue (by decide) (by decide)
  obtain ⟨u, hu⟩ := exists_ofFileTime? Int64.minValue
  rw [fileTime_fromDirectory_of_ne (by decide) (by decide) hu] at hread
  obtain rfl : u = t := Value.dateTime.inj (Except.ok.inj hread)
  exact absurd ((fileTime_toDirectory_of_count hu).1.mp hwritten) (by decide)

/-- **Counts are ordered as the instants that they are written of.** Let an instant lie outside leap
seconds. The seconds from which it is written do not overflow. It is refused just when the counts of
its whole seconds, or these and those of its nanoseconds, leave sixty-four bits, and is written
otherwise as the counts of 100 nanoseconds from the start of 1601, rounded down. An instant that it
is not after has no smaller count, and a greater one when 100 nanoseconds lie between them. What is
written is read as the instant less what it has beyond 100 nanoseconds, and as null where the count
is zero or the greatest one. -/
theorem fileTime_order (t : Instant) (ht : t.isLeap = false) :
    Fits (t.seconds + epochSeconds)
      ∧ (fileTime.toDirectory (.dateTime t)
          = .error (.conversionFailed "windows_time" .dateTimeOutOfRange)
        ↔ ¬ Fits ((t.seconds + epochSeconds) * 10000000)
          ∨ ¬ Fits ((t.seconds + epochSeconds) * 10000000 + (t.nanos / 100 : Nat)))
      ∧ (Fits ((t.seconds + epochSeconds) * 10000000) →
        Fits ((t.seconds + epochSeconds) * 10000000 + (t.nanos / 100 : Nat)) →
        fileTime.toDirectory (.dateTime t) = .ok (.text (decimal (t.elapsed / 100))))
      ∧ (∀ u : Instant, t.NotAfter u → ∀ raw raw', fileTime.toDirectory (.dateTime t) = .ok raw →
        fileTime.toDirectory (.dateTime u) = .ok raw' →
        ∃ m n : Int64, raw = .text (decimal m.toInt) ∧ raw' = .text (decimal n.toInt) ∧ m ≤ n
          ∧ (t.elapsed + 100 ≤ u.elapsed → m < n))
      ∧ (∀ raw, fileTime.toDirectory (.dateTime t) = .ok raw →
        fileTime.fromDirectory raw
          = .ok (if t.elapsed / 100 = 0 ∨ t.elapsed / 100 = 0x7FFF_FFFF_FFFF_FFFF then .null
            else .dateTime (t.atTick ht))) := by
  have hwhole : (t.seconds + epochSeconds) * 10000000 = t.wholeTicks := rfl
  have hcounts : t.elapsed / 100 = t.ticks := rfl
  rw [hwhole, hcounts, ← ticks_eq, ← fileTime?_eq_none_iff]
  refine ⟨t.fits_seconds, ⟨fun hrefused => ?_, fileTime_toDirectory_of_none⟩,
    fun hfits hfits' => ?_, fun u horder raw raw' hraw hraw' => ?_, fun raw hraw => ?_⟩
  · rw [Option.eq_none_iff_forall_ne_some]
    intro n hn
    rw [fileTime_toDirectory_of_some hn] at hrefused
    cases hrefused
  · obtain ⟨n, -, hn⟩ := hfits'.exists_int64?
    rw [← hn]
    exact fileTime_toDirectory_of_some (fileTime?_eq_some_iff.mpr ⟨hfits, hn⟩)
  · obtain ⟨m, hm, rfl⟩ := fileTime_toDirectory_eq_ok_iff.mp hraw
    obtain ⟨n, hn, rfl⟩ := fileTime_toDirectory_eq_ok_iff.mp hraw'
    refine ⟨m, n, rfl, rfl, ?_, fun happart => ?_⟩
    · rw [Int64.le_iff_toInt_le, (fileTime?_eq_some_iff.mp hm).2, (fileTime?_eq_some_iff.mp hn).2]
      exact ticks_le_ticks ht horder
    · rw [Int64.lt_iff_toInt_lt, (fileTime?_eq_some_iff.mp hm).2, (fileTime?_eq_some_iff.mp hn).2]
      exact ticks_lt_ticks happart
  · obtain ⟨n, hn, rfl⟩ := fileTime_toDirectory_eq_ok_iff.mp hraw
    rw [fileTime_fromDirectory_decimal (ofFileTime?_of_fileTime? ht hn),
      ← (fileTime?_eq_some_iff.mp hn).2]
    simp only [isNever, Bool.or_eq_true, decide_eq_true_eq]

/-- Instants on both sides of 1970, 100 nanoseconds apart, have counts one apart, and the first is
read less its last 99 nanoseconds. -/
theorem fileTime_order_aroundEpoch :
    let t : Instant := ⟨-1, 999999999, by decide⟩
    let u : Instant := ⟨0, 99, by decide⟩
    t.isLeap = false
      ∧ fileTime.toDirectory (.dateTime t) = .ok (.text (decimal 116444735999999999))
      ∧ (∃ v : Instant, fileTime.fromDirectory (.text (decimal 116444735999999999))
        = .ok (.dateTime v) ∧ v.seconds = -1 ∧ v.nanos = 999999900)
      ∧ fileTime.toDirectory (.dateTime u) = .ok (.text (decimal 116444736000000000))
      ∧ ∃ m n : Int64, RawValue.text (decimal 116444735999999999) = .text (decimal m.toInt)
        ∧ RawValue.text (decimal 116444736000000000) = .text (decimal n.toInt) ∧ m < n := by
  intro t u
  have ht : t.isLeap = false := by decide
  have hu : u.isLeap = false := by decide
  have hticks : t.elapsed / 100 = 116444735999999999 := by decide
  have hticks' : u.elapsed / 100 = 116444736000000000 := by decide
  obtain ⟨-, -, hwrite, horder, hback⟩ := fileTime_order t ht
  obtain ⟨-, -, hwrite', -, -⟩ := fileTime_order u hu
  have htext := hwrite (by decide) (by decide)
  have htext' := hwrite' (by decide) (by decide)
  rw [hticks] at htext hback
  rw [hticks'] at htext'
  obtain ⟨m, n, hm, hn, -, hlt⟩ := horder u (.inl (by decide)) _ _ htext htext'
  have hread := hback _ htext
  rw [if_neg (by decide)] at hread
  have hnanos : (t.atTick ht).nanos = 999999900 := by
    show t.nanos / 100 * 100 = 999999900
    decide
  exact ⟨ht, htext, ⟨t.atTick ht, hread, rfl, hnanos⟩, htext', m, n, hm, hn, hlt (by decide)⟩

end DirectoryLens.Converter
