/-
Reading generalized time.

* `GeneralizedTime.Writes`: the texts that are put together of given parts;
* `parse?_eq_some_iff`: a text is cut into the parts that it is put together of;
* `Writes.mem`: such a text consists of digits and a few marks;
* `GeneralizedTime.Shows`, `GeneralizedTime.Ahead`, `GeneralizedTime.Denotes`: the clock that parts
  show, the distance of their zone, and the instant that they denote;
* `GeneralizedTime.Undivided`: the hours of a zone that are cut inside a character;
* `ofGeneralizedTime_eq_ok_iff`, `ofGeneralizedTime_eq_undivided_iff`: what is read, and where the
  reading breaks off;
* `GeneralizedTime.InFull`, `Writes.inFull`: all that is written counts in texts of ASCII
  characters.

Digits are those of every script where a text is cut. Where they are counted they are ASCII digits.
-/
import Mathlib.Tactic
import DirectoryLens.Time.GeneralizedTime
import DirectoryLens.Proofs.Number.Numeral
import DirectoryLens.Proofs.Text.Ascii
import DirectoryLens.Proofs.Text.Run
import DirectoryLens.Proofs.Time.Clock
import DirectoryLens.Proofs.Traversal

namespace DirectoryLens

open Text Number Time

namespace GeneralizedTime

/-! ### The texts of given parts -/

/-- So many digits, of any script. -/
def Run (n : Nat) (ds : List Char) : Prop :=
  ds.length = n ∧ ∀ c ∈ ds, isDecimalDigit c = true

/-- The texts of a fraction: nothing when there is none, else a point or a comma and one to nine
digits. -/
inductive FractionForm : Option (List Char) → List Char → Prop
  | absent : FractionForm none []
  | given {mark : Char} {ds : List Char} : mark = '.' ∨ mark = ',' → 1 ≤ ds.length →
      Run ds.length ds → ds.length ≤ 9 → FractionForm (some ds) (mark :: ds)

/-- The texts of a zone: nothing or `Z` for Universal Time, else a sign and two or four digits. -/
inductive ZoneForm : Option Zone → List Char → Prop
  | absent : ZoneForm none []
  | universal : ZoneForm none ['Z']
  | signed {z : Zone} : z.sign = '+' ∨ z.sign = '-' → z.minutes.length = 0 ∨ z.minutes.length = 2 →
      (∀ c ∈ z.firstHour :: z.secondHour :: z.minutes, isDecimalDigit c = true) →
      ZoneForm (some z) (z.sign :: z.firstHour :: z.secondHour :: z.minutes)

/-- A text is put together of parts: four digits of the year, two of the month, the day and the hour
each, two of the minute if it is given, and then two of the second if that is given; a fraction and
a zone. -/
def Writes (g : GeneralizedTime) (s : List Char) : Prop :=
  ∃ fraction zone,
    s = g.year ++ (g.month ++ (g.day ++ (g.hour
        ++ (g.minute.getD [] ++ (g.second.getD [] ++ (fraction ++ zone))))))
      ∧ Run 4 g.year ∧ Run 2 g.month ∧ Run 2 g.day ∧ Run 2 g.hour
      ∧ (∀ ds ∈ g.minute, Run 2 ds) ∧ (∀ ds ∈ g.second, Run 2 ds ∧ g.minute ≠ none)
      ∧ FractionForm g.fraction fraction ∧ ZoneForm g.zone zone

variable {g : GeneralizedTime} {n : Nat} {s ds rest : List Char}

/-! ### Cutting a text into its parts -/

/-- No digit stands at the head of a text. -/
def Stops (s : List Char) : Prop :=
  ∀ c ∈ s.head?, isDecimalDigit c = false

/-- Digits are taken off the head of a text. -/
lemma takeDigits?_eq_some_iff : takeDigits? n s = some (ds, rest) ↔ s = ds ++ rest ∧ Run n ds := by
  rw [takeDigits?, Run]
  constructor
  · intro h
    split_ifs at h with hrun
    rw [Bool.and_eq_true, decide_eq_true_eq, List.all_eq_true] at hrun
    obtain ⟨rfl, rfl⟩ := Prod.mk.inj (Option.some_inj.mp h)
    exact ⟨(List.take_append_drop n s).symm, hrun⟩
  · rintro ⟨rfl, hlength, hdigits⟩
    rw [List.take_left' hlength, List.drop_left' hlength, if_pos]
    rw [Bool.and_eq_true, decide_eq_true_eq, List.all_eq_true]
    exact ⟨hlength, hdigits⟩

/-- Two digits are taken off the head of a text that starts with them. -/
lemma takePair_append (h : Run 2 ds) : takePair (ds ++ rest) = (some ds, rest) := by
  rw [takePair, takeDigits?_eq_some_iff.mpr ⟨rfl, h⟩]

/-- Nothing is taken off a text with no digit at its head. -/
lemma takePair_of_stops (h : Stops s) : takePair s = (none, s) := by
  rw [takePair]
  split
  · rename_i ds rest hds
    obtain ⟨rfl, hlength, hdigits⟩ := takeDigits?_eq_some_iff.mp hds
    match ds, hlength with
    | [c, d], _ =>
        have hc := h c rfl
        rw [hdigits c List.mem_cons_self] at hc
        cases hc
  · rfl

/-- What is taken off the head of a text are two digits, or nothing, which is taken again then. -/
lemma takePair_spec (s : List Char) :
    s = (takePair s).1.getD [] ++ (takePair s).2 ∧ (∀ ds ∈ (takePair s).1, Run 2 ds)
      ∧ ((takePair s).1 = none → takePair (takePair s).2 = (none, (takePair s).2)) := by
  cases hpair : takeDigits? 2 s with
  | some p =>
      have hparts : takeDigits? 2 s = some (p.1, p.2) := hpair
      obtain ⟨rfl, hrun⟩ := takeDigits?_eq_some_iff.mp hparts
      rw [takePair_append hrun]
      exact ⟨rfl, fun ds hds => Option.mem_some_iff.mp hds ▸ hrun, nofun⟩
  | none =>
      have hnone : takePair s = (none, s) := by rw [takePair, hpair]
      rw [hnone]
      exact ⟨rfl, nofun, fun _ => hnone⟩

/-- No text of a zone starts with a digit, or with the mark of a fraction. -/
lemma ZoneForm.stops {z : Option Zone} (h : ZoneForm z s) :
    Stops s ∧ ∀ c ∈ s.head?, ¬ (c = '.' ∨ c = ',') := by
  cases h with
  | absent => exact ⟨nofun, nofun⟩
  | universal =>
      refine ⟨?_, ?_⟩
      · rintro _ ⟨⟩
        decide
      · rintro _ ⟨⟩
        decide
  | signed hsign _ _ =>
      simp only [Stops, List.head?_cons, Option.mem_some_iff, forall_eq']
      rcases hsign with hsign | hsign <;> rw [hsign] <;> decide

/-- No text of a fraction and a zone starts with a digit. -/
lemma FractionForm.stops {f : Option (List Char)} {z : Option Zone} (hf : FractionForm f s)
    (hz : ZoneForm z rest) : Stops (s ++ rest) := by
  cases hf with
  | absent => exact hz.stops.1
  | given hmark _ _ _ =>
      simp only [Stops, List.cons_append, List.head?_cons, Option.mem_some_iff, forall_eq']
      rcases hmark with rfl | rfl <;> decide

/-- The digits at the head of a text end where no digit stands. -/
lemma span_of_stops (hds : ∀ c ∈ ds, isDecimalDigit c = true) (h : Stops rest) :
    (ds ++ rest).takeWhile isDecimalDigit = ds ∧ (ds ++ rest).dropWhile isDecimalDigit = rest :=
  ⟨takeWhile_run hds h, dropWhile_run hds h⟩

/-- A fraction is taken off the text of a zone. -/
lemma takeFraction?_append {f : Option (List Char)} {z : Option Zone} (hf : FractionForm f s)
    (hz : ZoneForm z rest) : takeFraction? (s ++ rest) = some (f, rest) := by
  obtain ⟨hstops, hmarks⟩ := hz.stops
  cases hf with
  | absent =>
      rw [List.nil_append]
      cases rest with
      | nil => rfl
      | cons c rest =>
          have hc : ¬ ((c = '.' || c = ',') = true) := by simpa using hmarks c rfl
          rw [takeFraction?, if_neg hc]
  | @given mark ds hmark hone hrun hnine =>
      have hc : (mark = '.' || mark = ',') = true := by simpa using hmark
      obtain ⟨htake, hdrop⟩ := span_of_stops hrun.2 hstops
      have hlength : (1 ≤ ds.length && ds.length ≤ 9) = true := by
        rw [Bool.and_eq_true, decide_eq_true_eq, decide_eq_true_eq]
        exact ⟨hone, hnine⟩
      rw [List.cons_append, takeFraction?, if_pos hc]
      dsimp only
      rw [htake, hdrop, if_pos hlength]

/-- What is taken off the head of a text is that of a fraction. -/
lemma exists_of_takeFraction? {f : Option (List Char)} (h : takeFraction? s = some (f, rest)) :
    ∃ t, s = t ++ rest ∧ FractionForm f t := by
  cases s with
  | nil =>
      obtain ⟨rfl, rfl⟩ := Prod.mk.inj (Option.some_inj.mp h)
      exact ⟨[], rfl, .absent⟩
  | cons c s =>
      rw [takeFraction?] at h
      dsimp only at h
      split_ifs at h with hmark hlength
      · obtain ⟨rfl, rfl⟩ := Prod.mk.inj (Option.some_inj.mp h)
        rw [Bool.and_eq_true, decide_eq_true_eq, decide_eq_true_eq] at hlength
        refine ⟨c :: s.takeWhile isDecimalDigit, ?_,
          .given (by simpa using hmark) hlength.1
            ⟨rfl, List.all_eq_true.mp List.all_takeWhile⟩ hlength.2⟩
        rw [List.cons_append, List.takeWhile_append_dropWhile]
      · obtain ⟨rfl, rfl⟩ := Prod.mk.inj (Option.some_inj.mp h)
        exact ⟨[], rfl, .absent⟩

/-- The rest of a text is the zone that it is a text of. -/
lemma zone?_eq_some_iff {z : Option Zone} : zone? s = some z ↔ ZoneForm z s := by
  constructor
  · intro h
    rw [zone?.eq_def] at h
    split at h
    · cases h
      exact .absent
    · cases h
      exact .universal
    · rename_i sign h₁ h₂ minutes
      split_ifs at h with hform
      cases h
      simp only [Bool.and_eq_true, Bool.or_eq_true, decide_eq_true_eq, List.all_eq_true] at hform
      exact .signed (z := ⟨sign, h₁, h₂, minutes⟩) hform.1.1 hform.2 hform.1.2
    · cases h
  · intro h
    cases h with
    | absent => rfl
    | universal => rfl
    | @signed z hsign hminutes hdigits =>
        rw [zone?, if_pos]
        simp only [Bool.and_eq_true, Bool.or_eq_true, decide_eq_true_eq, List.all_eq_true]
        exact ⟨⟨hsign, hdigits⟩, hminutes⟩

/-- A pair of digits that may be absent is taken off a text, when it is absent only where no digit
stands at the head. -/
lemma takePair_getD {pair : Option (List Char)} (hrun : ∀ ds ∈ pair, Run 2 ds)
    (hstops : pair = none → Stops rest) : takePair (pair.getD [] ++ rest) = (pair, rest) := by
  cases pair with
  | none => exact takePair_of_stops (hstops rfl)
  | some ds => exact takePair_append (hrun ds rfl)

/-- **A text is cut into the parts that it is put together of.** -/
theorem parse?_eq_some_iff : parse? s = some g ↔ g.Writes s := by
  constructor
  · intro h
    rw [parse?] at h
    simp only [Option.bind_eq_bind, Option.bind_eq_some_iff, Prod.exists,
      takeDigits?_eq_some_iff, zone?_eq_some_iff, Option.pure_def, Option.some_inj] at h
    obtain ⟨year, _, ⟨rfl, hyear⟩, month, _, ⟨rfl, hmonth⟩, day, _, ⟨rfl, hday⟩, hour, s₁,
      ⟨rfl, hhour⟩, fraction, zone, hfraction, z, hz, rfl⟩ := h
    obtain ⟨hminutes, hminute, hagain⟩ := takePair_spec s₁
    obtain ⟨hseconds, hsecond, -⟩ := takePair_spec (takePair s₁).2
    obtain ⟨t, hfractions, hform⟩ := exists_of_takeFraction? hfraction
    refine ⟨t, zone, ?_, hyear, hmonth, hday, hhour, hminute, fun ds hds => ⟨hsecond ds hds, ?_⟩,
      hform, hz⟩
    · rw [← hfractions, ← hseconds, ← hminutes]
    · -- where no minute is taken no second is
      intro hnone
      have hds' : ds ∈ (takePair (takePair s₁).2).1 := hds
      rw [hagain hnone] at hds'
      cases hds'
  · rintro ⟨fraction, zone, rfl, hyear, hmonth, hday, hhour, hminute, hsecond, hfraction, hzone⟩
    have hstops := hfraction.stops hzone
    have htakeSecond : takePair (g.second.getD [] ++ (fraction ++ zone))
        = (g.second, fraction ++ zone) :=
      takePair_getD (fun ds hds => (hsecond ds hds).1) fun _ => hstops
    have htakeMinute : takePair (g.minute.getD [] ++ (g.second.getD [] ++ (fraction ++ zone)))
        = (g.minute, g.second.getD [] ++ (fraction ++ zone)) := by
      refine takePair_getD hminute fun hnone => ?_
      have hsecondNone : g.second = none :=
        Option.eq_none_iff_forall_not_mem.mpr fun ds hds => (hsecond ds hds).2 hnone
      rwa [hsecondNone, Option.getD_none, List.nil_append]
    simp only [parse?, takeDigits?_eq_some_iff.mpr ⟨rfl, hyear⟩,
      takeDigits?_eq_some_iff.mpr ⟨rfl, hmonth⟩, takeDigits?_eq_some_iff.mpr ⟨rfl, hday⟩,
      takeDigits?_eq_some_iff.mpr ⟨rfl, hhour⟩, htakeMinute, htakeSecond,
      takeFraction?_append hfraction hzone, zone?_eq_some_iff.mpr hzone, Option.bind_eq_bind,
      Option.bind_some, Option.pure_def]

/-- A text is put together of the same parts only. -/
lemma Writes.unique {g' : GeneralizedTime} (h : g.Writes s) (h' : g'.Writes s) : g = g' :=
  Option.some_inj.mp ((parse?_eq_some_iff.mpr h).symm.trans (parse?_eq_some_iff.mpr h'))

/-- A fraction consists of its mark and digits. -/
lemma FractionForm.mem {f : Option (List Char)} {c : Char} (h : FractionForm f s) (hc : c ∈ s) :
    isDecimalDigit c = true ∨ c = '.' ∨ c = ',' := by
  cases h with
  | absent => cases hc
  | given hmark _ hrun _ =>
      rcases List.mem_cons.mp hc with rfl | hc
      · exact .inr hmark
      · exact .inl (hrun.2 c hc)

/-- A zone consists of its mark and digits. -/
lemma ZoneForm.mem {z : Option Zone} {c : Char} (h : ZoneForm z s) (hc : c ∈ s) :
    isDecimalDigit c = true ∨ c = 'Z' ∨ c = '+' ∨ c = '-' := by
  cases h with
  | absent => cases hc
  | universal => exact .inr (.inl (List.mem_singleton.mp hc))
  | signed hsign _ hdigits =>
      rcases List.mem_cons.mp hc with rfl | hc
      · exact .inr (.inr hsign)
      · exact .inl (hdigits c hc)

/-- A text that is put together of parts consists of digits and of the marks of fractions and
zones. -/
lemma Writes.mem {c : Char} (h : g.Writes s) (hc : c ∈ s) :
    isDecimalDigit c = true ∨ c ∈ ['.', ',', 'Z', '+', '-'] := by
  obtain ⟨fraction, zone, rfl, hyear, hmonth, hday, hhour, hminute, hsecond, hfraction, hzone⟩ := h
  have hpair : ∀ {pair : Option (List Char)}, (∀ ds ∈ pair, Run 2 ds) → c ∈ pair.getD [] →
      isDecimalDigit c = true := by
    intro pair hrun hmem
    cases pair with
    | none => cases hmem
    | some ds => exact (hrun ds rfl).2 c hmem
  simp only [List.mem_append] at hc
  rcases hc with hc | hc | hc | hc | hc | hc | hc | hc
  · exact .inl (hyear.2 c hc)
  · exact .inl (hmonth.2 c hc)
  · exact .inl (hday.2 c hc)
  · exact .inl (hhour.2 c hc)
  · exact .inl (hpair hminute hc)
  · exact .inl (hpair (fun ds hds => (hsecond ds hds).1) hc)
  · rcases hfraction.mem hc with hdigit | rfl | rfl
    · exact .inl hdigit
    · exact .inr (by decide)
    · exact .inr (by decide)
  · rcases hzone.mem hc with hdigit | rfl | rfl | rfl
    · exact .inl hdigit
    · exact .inr (by decide)
    · exact .inr (by decide)
    · exact .inr (by decide)

/-! ### The instant of the parts -/

/-- What a group of digits counts: the number that it denotes, and zero when it denotes none. -/
def Counts (ds : List Char) (n : Nat) : Prop :=
  Figures ds n ∨ (n = 0 ∧ ∀ m, ¬ Figures ds m)

/-- The nanoseconds of a fraction, which counts behind seconds only. -/
inductive Nanos (g : GeneralizedTime) : Nat → Prop
  | absent : g.fraction = none → Nanos g 0
  | given {ds : List Char} {m : Nat} : g.fraction = some ds → g.second ≠ none → Figures ds m →
      Nanos g (m * 10 ^ (9 - ds.length))

/-- Parts show a clock that is one, and nanoseconds. -/
structure Shows (g : GeneralizedTime) (c : Instant.Clock) (nanos : Nat) : Prop where
  year : ∃ n : Nat, Figures g.year n ∧ c.date.year = n
  month : Figures g.month c.date.month
  day : Figures g.day c.date.day
  hour : Figures g.hour c.hour
  minute : Counts (g.minute.getD []) c.minute
  second : Counts (g.second.getD []) c.second
  fraction : g.Nanos nanos
  isReal : c.IsReal

/-- The seconds by which a zone is ahead of Universal Time, less than a day. -/
inductive Ahead : Option Zone → Int → Prop
  | universal : Ahead none 0
  | signed {z : Zone} {hours minutes : Nat} : Figures [z.firstHour, z.secondHour] hours →
      Counts z.minutes minutes → 3600 * hours + 60 * minutes < 86400 →
      Ahead (some z) (if z.sign = '-' then -(3600 * hours + 60 * minutes : Nat)
        else (3600 * hours + 60 * minutes : Nat))

/-- Parts denote an instant: what they show, less what their zone is ahead. -/
def Denotes (g : GeneralizedTime) (t : Instant) : Prop :=
  ∃ (c : Instant.Clock) (offset : Int), g.Shows c t.nanos ∧ Ahead g.zone offset
    ∧ t.seconds = c.seconds - offset

/-- What a group of digits counts is what is read of it, or zero. -/
lemma getD_readDigits?_eq_iff : (readDigits? ds).getD 0 = n ↔ Counts ds n := by
  rw [Counts]
  simp only [← readDigits?_eq_some_iff]
  cases readDigits? ds with
  | some m => simp
  | none => simp [eq_comm]

/-- What a group that may be absent counts is what is read of it, or zero. -/
lemma getD_bind_readDigits?_eq_iff {group : Option (List Char)} :
    (group.bind readDigits?).getD 0 = n ↔ Counts (group.getD []) n := by
  rw [← getD_readDigits?_eq_iff]
  cases group <;> rfl

/-- The nanoseconds of a fraction with digits are those that are read of it. -/
lemma nanos?_eq_some_iff (h : ∀ ds ∈ g.fraction, ds ≠ []) : g.nanos? = some n ↔ g.Nanos n := by
  rw [nanos?]
  cases hfraction : g.fraction with
  | none =>
      constructor
      · rintro ⟨⟩
        exact .absent hfraction
      · intro hn
        cases hn with
        | absent => rfl
        | given hds => simp [hfraction] at hds
  | some ds =>
      dsimp only
      split_ifs with hsecond
      · rw [readDigits?_eq_some_iff, figures_append_zeros (h ds hfraction)]
        constructor
        · rintro ⟨m, hm, rfl⟩
          exact .given hfraction (Option.isSome_iff_ne_none.mp hsecond) hm
        · intro hn
          cases hn with
          | absent hnone => simp [hfraction] at hnone
          | given hds _ hm =>
              obtain rfl := Option.some_inj.mp (hfraction.symm.trans hds)
              exact ⟨_, hm, rfl⟩
      · refine iff_of_false nofun fun hn => ?_
        cases hn with
        | absent hnone => simp [hfraction] at hnone
        | given _ hgiven _ => exact hsecond (Option.isSome_iff_ne_none.mpr hgiven)

/-- The time as it stands is what the parts show. -/
lemma local?_eq_some_iff (h : ∀ ds ∈ g.fraction, ds ≠ []) {seconds : Int} :
    g.local? = some (seconds, n) ↔ ∃ c : Instant.Clock, g.Shows c n ∧ c.seconds = seconds := by
  rw [local?]
  simp only [Option.bind_eq_bind, Option.bind_eq_some_iff, readDigits?_eq_some_iff,
    nanos?_eq_some_iff h]
  constructor
  · rintro ⟨year, hyear, month, hmonth, day, hday, hour, hhour, nanos, hnanos, hc⟩
    split_ifs at hc with hreal
    obtain ⟨rfl, rfl⟩ := Prod.mk.inj (Option.some_inj.mp hc)
    simp only [Bool.and_eq_true, decide_eq_true_eq] at hreal
    obtain ⟨⟨⟨hdate, hhours⟩, hminutes⟩, hseconds⟩ := hreal
    exact ⟨⟨⟨year, month, day⟩, hour, _, _⟩,
      ⟨⟨year, hyear, rfl⟩, hmonth, hday, hhour, getD_bind_readDigits?_eq_iff.mp rfl,
        getD_bind_readDigits?_eq_iff.mp rfl, hnanos, hdate, hhours, hminutes, hseconds⟩, rfl⟩
  · rintro ⟨⟨⟨year, month, day⟩, hour, minute, second⟩,
      ⟨⟨y, hyear, rfl⟩, hmonth, hday, hhour, hminute, hsecond, hnanos, hreal⟩, rfl⟩
    refine ⟨y, hyear, month, hmonth, day, hday, hour, hhour, n, hnanos, ?_⟩
    rw [getD_bind_readDigits?_eq_iff.mpr hminute, getD_bind_readDigits?_eq_iff.mpr hsecond,
      if_pos]
    · rfl
    · simp only [Bool.and_eq_true, decide_eq_true_eq]
      exact ⟨⟨⟨hreal.date, hreal.hour⟩, hreal.minute⟩, hreal.second⟩

/-! ### Zones -/

/-- No character ends two octets behind the sign of a zone. -/
def Undivided (z : Zone) : Prop :=
  z.firstHour.utf8Size ≠ 2 ∧ z.firstHour.utf8Size + z.secondHour.utf8Size ≠ 2

/-- An ASCII digit is one octet. -/
lemma utf8Size_of_isDigit {c : Char} (h : c.isDigit = true) : c.utf8Size = 1 := by
  rw [isDigit_iff] at h
  rw [Char.utf8Size_eq_one_iff]
  have hsmall : c.val.toNat ≤ 127 := h.2.trans (by decide)
  exact UInt32.le_iff_toNat_le.mpr hsmall

/-- Hours of two octets are read, with the minutes behind them. -/
lemma offset_of_utf8Size {z : Zone} (h : z.firstHour.utf8Size = 1 ∧ z.secondHour.utf8Size = 1) :
    z.offset = (readDigits? [z.firstHour, z.secondHour]).elim (.error .malformed) fun hours =>
      let seconds := 3600 * hours + 60 * (readDigits? z.minutes).getD 0
      if 86400 ≤ seconds then .error .malformed
      else .ok (if z.sign = '-' then -(seconds : Int) else seconds) := by
  rw [Zone.offset, if_neg (by rw [h.1]; decide), if_neg (by rw [h.1, h.2]; decide)]
  cases readDigits? [z.firstHour, z.secondHour] <;> rfl

/-- Hours of more octets are refused when the first is two octets, and break the reading off
otherwise. -/
lemma offset_of_utf8Size_ne {z : Zone}
    (h : ¬ (z.firstHour.utf8Size = 1 ∧ z.secondHour.utf8Size = 1)) :
    z.offset = .error (if z.firstHour.utf8Size = 2 then .malformed else .undividedZone) := by
  have hlarge : (z.firstHour.utf8Size ≠ 1 || z.secondHour.utf8Size ≠ 1) = true := by
    rw [Bool.or_eq_true, decide_eq_true_eq, decide_eq_true_eq]
    omega
  rw [Zone.offset, if_pos hlarge]
  split_ifs <;> rfl

/-- The distance of a zone is read when it is less than a day. -/
lemma offset_eq_ok_iff {z : Zone} {offset : Int} :
    z.offset = .ok offset ↔ Ahead (some z) offset := by
  constructor
  · intro h
    by_cases hsize : z.firstHour.utf8Size = 1 ∧ z.secondHour.utf8Size = 1
    · rw [offset_of_utf8Size hsize] at h
      cases hhours : readDigits? [z.firstHour, z.secondHour] with
      | none =>
          rw [hhours] at h
          cases h
      | some hours =>
          rw [hhours, Option.elim_some] at h
          dsimp only at h
          split at h
          · cases h
          · rename_i hday
            obtain rfl := Except.ok.inj h
            exact .signed (readDigits?_eq_some_iff.mp hhours) (getD_readDigits?_eq_iff.mp rfl)
              (Nat.not_le.mp hday)
    · rw [offset_of_utf8Size_ne hsize] at h
      cases h
  · intro h
    cases h with
    | @signed _ hours minutes hhours hminutes hday =>
        have hsize := fun c hc => utf8Size_of_isDigit (hhours.2.1 c hc)
        rw [offset_of_utf8Size ⟨hsize _ (by simp), hsize _ (by simp)⟩,
          readDigits?_eq_some_iff.mpr hhours, Option.elim_some]
        dsimp only
        rw [getD_readDigits?_eq_iff.mpr hminutes, if_neg (Nat.not_le.mpr hday)]

/-- Reading a zone breaks off where no character ends behind its hours. -/
lemma offset_eq_undivided_iff {z : Zone} :
    z.offset = .error .undividedZone ↔ Undivided z := by
  have hfirst := z.firstHour.utf8Size_pos
  have hsecond := z.secondHour.utf8Size_pos
  rw [Undivided]
  by_cases hsize : z.firstHour.utf8Size = 1 ∧ z.secondHour.utf8Size = 1
  · rw [offset_of_utf8Size hsize]
    refine iff_of_false (fun h => ?_) (by omega)
    cases hhours : readDigits? [z.firstHour, z.secondHour] with
    | none =>
        rw [hhours] at h
        cases h
    | some hours =>
        rw [hhours, Option.elim_some] at h
        dsimp only at h
        split at h <;> cases h
  · rw [offset_of_utf8Size_ne hsize]
    split_ifs with htwo
    · exact iff_of_false nofun (by omega)
    · exact iff_of_true rfl (by omega)

/-- A zone is ahead by less than a day, and behind by less than one. -/
lemma Ahead.bounds {z : Option Zone} {offset : Int} (h : Ahead z offset) :
    -86400 < offset ∧ offset < 86400 := by
  cases h with
  | universal => decide
  | signed _ _ hday => split_ifs <;> omega

/-! ### Reading -/

/-- A fraction has digits, no more than nine of them. -/
lemma Writes.fraction_length (h : g.Writes s) :
    ∀ ds ∈ g.fraction, 1 ≤ ds.length ∧ ds.length ≤ 9 := by
  obtain ⟨_, _, -, -, -, -, -, -, -, hform, -⟩ := h
  intro ds hds
  rw [hds] at hform
  cases hform with
  | given _ hone _ hnine => exact ⟨hone, hnine⟩

/-- A fraction has digits. -/
lemma Writes.fraction_ne_nil (h : g.Writes s) : ∀ ds ∈ g.fraction, ds ≠ [] := fun ds hds =>
  List.ne_nil_of_length_pos (h.fraction_length ds hds).1

/-- A fraction counts less than a second. -/
lemma Writes.nanos_lt (h : g.Writes s) (hn : g.Nanos n) : n < 1000000000 := by
  cases hn with
  | absent => decide
  | @given ds m hds _ hm =>
      have hnine := (h.fraction_length ds hds).2
      calc m * 10 ^ (9 - ds.length)
          < 10 ^ ds.length * 10 ^ (9 - ds.length) :=
            Nat.mul_lt_mul_of_pos_right hm.lt_pow (Nat.pow_pos (by decide))
        _ = 10 ^ 9 := by rw [← Nat.pow_add, Nat.add_sub_cancel' hnine]

/-- What parts show is an instant in every zone. -/
lemma Writes.admissible (h : g.Writes s) {c : Instant.Clock} {offset : Int} (hc : g.Shows c n)
    (hoffset : Ahead g.zone offset) : Instant.Admissible (c.seconds - offset) n := by
  have hnanos := h.nanos_lt hc.fraction
  obtain ⟨_, _, -, hfour, -⟩ := h
  obtain ⟨year, hyear, hdate⟩ := hc.year
  have hsmall := hyear.lt_pow
  rw [hfour.1] at hsmall
  exact hc.isReal.admissible (by omega) hoffset.bounds hnanos

/-- Parts denote an instant when they show a clock, and their zone is one. -/
lemma Writes.exists_denotes_iff (h : g.Writes s) :
    (∃ t, g.Denotes t) ↔ ∃ c n offset, g.Shows c n ∧ Ahead g.zone offset := by
  constructor
  · rintro ⟨t, c, offset, hc, hoffset, -⟩
    exact ⟨c, t.nanos, offset, hc, hoffset⟩
  · rintro ⟨c, n, offset, hc, hoffset⟩
    exact ⟨⟨c.seconds - offset, n, h.admissible hc hoffset⟩, c, offset, hc, hoffset, rfl⟩

/-- The seconds by which what stands for a zone is ahead. -/
def zoneOffset : Option Zone → Except TimeFault Int
  | none => .ok 0
  | some z => z.offset

/-- The distance of what stands for a zone is read when it is less than a day. -/
lemma zoneOffset_eq_ok_iff {zone : Option Zone} {offset : Int} :
    zoneOffset zone = .ok offset ↔ Ahead zone offset := by
  cases zone with
  | none =>
      constructor
      · rintro ⟨⟩
        exact .universal
      · rintro ⟨⟩
        rfl
  | some z => exact offset_eq_ok_iff

/-- Reading what stands for a zone breaks off where no character ends behind its hours. -/
lemma zoneOffset_eq_undivided_iff {zone : Option Zone} :
    zoneOffset zone = .error .undividedZone ↔ ∃ z ∈ zone, Undivided z := by
  cases zone with
  | none => exact iff_of_false nofun (by simp)
  | some z => simp [zoneOffset, offset_eq_undivided_iff]

/-- Of less than a second's worth of nanoseconds every instant is made that has them. -/
lemma ofParts?_eq_some_iff (hn : n < 1000000000) {seconds : Int} {t : Instant} :
    Instant.ofParts? seconds n = some t ↔ t.seconds = seconds ∧ t.nanos = n := by
  rw [Instant.ofParts?]
  constructor
  · intro h
    split_ifs at h
    obtain rfl := Option.some_inj.mp h
    exact ⟨rfl, rfl⟩
  · rintro ⟨rfl, rfl⟩
    rw [dif_pos ⟨t.admissible, .inl hn⟩]

/-- The instant of parts that show a clock is what it shows, less what their zone is ahead. -/
lemma Writes.instant_eq_of_shows (h : g.Writes s) {c : Instant.Clock} (hc : g.Shows c n) :
    g.instant = zoneOffset g.zone >>= fun offset =>
      match Instant.ofParts? (c.seconds - offset) n with
      | some t => .ok t
      | none => .error .malformed := by
  rw [instant.eq_def, (local?_eq_some_iff h.fraction_ne_nil).mpr ⟨c, hc, rfl⟩]
  cases g.zone <;> rfl

/-- Parts that show no clock have no instant. -/
lemma Writes.instant_eq_of_forall_not_shows (h : g.Writes s) (hc : ∀ c n, ¬ g.Shows c n) :
    g.instant = .error .malformed := by
  have hlocal : g.local? = none := by
    rw [Option.eq_none_iff_forall_ne_some]
    rintro ⟨seconds, n⟩ hsome
    obtain ⟨c, hshows, -⟩ := (local?_eq_some_iff h.fraction_ne_nil).mp hsome
    exact hc c n hshows
  rw [instant.eq_def, hlocal]

/-- The instant of parts is the one that they denote. -/
lemma Writes.instant_eq_ok_iff (h : g.Writes s) {t : Instant} :
    g.instant = .ok t ↔ g.Denotes t := by
  constructor
  · intro ht
    by_cases hshows : ∃ c n, g.Shows c n
    · obtain ⟨c, n, hc⟩ := hshows
      rw [h.instant_eq_of_shows hc, bind_eq_ok] at ht
      obtain ⟨offset, hoffset, ht⟩ := ht
      split at ht
      · rename_i u hparts
        obtain rfl := Except.ok.inj ht
        obtain ⟨hseconds, rfl⟩ := (ofParts?_eq_some_iff (h.nanos_lt hc.fraction)).mp hparts
        exact ⟨c, offset, hc, zoneOffset_eq_ok_iff.mp hoffset, hseconds⟩
      · cases ht
    · simp only [not_exists] at hshows
      rw [h.instant_eq_of_forall_not_shows hshows] at ht
      cases ht
  · rintro ⟨c, offset, hc, hoffset, hseconds⟩
    rw [h.instant_eq_of_shows hc, bind_eq_ok]
    refine ⟨offset, zoneOffset_eq_ok_iff.mpr hoffset, ?_⟩
    rw [(ofParts?_eq_some_iff (h.nanos_lt hc.fraction)).mpr ⟨hseconds, rfl⟩]

/-- The reading of parts breaks off when they show a clock and their zone is cut inside a
character. -/
lemma Writes.instant_eq_undivided_iff (h : g.Writes s) :
    g.instant = .error .undividedZone
      ↔ (∃ c n, g.Shows c n) ∧ ∃ z ∈ g.zone, Undivided z := by
  by_cases hshows : ∃ c n, g.Shows c n
  · rw [and_iff_right hshows]
    obtain ⟨c, n, hc⟩ := hshows
    rw [h.instant_eq_of_shows hc, bind_eq_error, zoneOffset_eq_undivided_iff]
    refine or_iff_left ?_
    rintro ⟨offset, -, hfault⟩
    split at hfault <;> cases hfault
  · refine iff_of_false (fun hfault => ?_) (fun h => hshows h.1)
    simp only [not_exists] at hshows
    rw [h.instant_eq_of_forall_not_shows hshows] at hfault
    cases hfault

/-- What a text is read as, other than malformed, is what its parts are read as. -/
lemma ofGeneralizedTime_eq_iff {text : String} {result : Except TimeFault Instant}
    {P : GeneralizedTime → Prop} (hresult : result ≠ .error .malformed)
    (h : ∀ (g : GeneralizedTime), g.Writes (trim text.toList) → (g.instant = result ↔ P g)) :
    Instant.ofGeneralizedTime text = result
      ↔ ∃ g : GeneralizedTime, g.Writes (trim text.toList) ∧ P g := by
  rw [Instant.ofGeneralizedTime]
  cases hparse : parse? (trim text.toList) with
  | none =>
      refine iff_of_false hresult.symm ?_
      rintro ⟨g, hg, -⟩
      rw [parse?_eq_some_iff.mpr hg] at hparse
      cases hparse
  | some g =>
      have hg := parse?_eq_some_iff.mp hparse
      dsimp only
      rw [h g hg]
      constructor
      · exact fun hP => ⟨g, hg, hP⟩
      · rintro ⟨g', hg', hP⟩
        exact hg'.unique hg ▸ hP

/-- **A text is read as the instant that its parts denote.** -/
theorem ofGeneralizedTime_eq_ok_iff {text : String} {t : Instant} :
    Instant.ofGeneralizedTime text = .ok t
      ↔ ∃ g : GeneralizedTime, g.Writes (trim text.toList) ∧ g.Denotes t :=
  ofGeneralizedTime_eq_iff nofun fun _ hg => hg.instant_eq_ok_iff

/-- **The reading of a text breaks off** where its parts show a clock and its zone is cut inside a
character. -/
theorem ofGeneralizedTime_eq_undivided_iff {text : String} :
    Instant.ofGeneralizedTime text = .error .undividedZone
      ↔ ∃ g : GeneralizedTime, g.Writes (trim text.toList) ∧ (∃ c n, g.Shows c n)
        ∧ ∃ z ∈ g.zone, Undivided z :=
  ofGeneralizedTime_eq_iff (by decide) fun _ hg => hg.instant_eq_undivided_iff

/-! ### Texts of ASCII characters -/

/-- Every group of digits that is written counts as the number that it denotes. -/
def InFull (g : GeneralizedTime) : Prop :=
  (∀ ds ∈ g.minute, ∃ n, Figures ds n) ∧ (∀ ds ∈ g.second, ∃ n, Figures ds n)
    ∧ ∀ z ∈ g.zone, z.minutes ≠ [] → ∃ n, Figures z.minutes n

/-- ASCII digits denote a number. -/
lemma Run.exists_figures (h : Run n ds) (hn : n ≠ 0) (hascii : ∀ c ∈ ds, c.toNat < 128) :
    ∃ m, Figures ds m := by
  refine ⟨_, ?_, fun c hc => isDigit_of_isDecimalDigit (h.2 c hc) (hascii c hc), rfl⟩
  rintro rfl
  exact hn h.1.symm

/-- In a text of ASCII characters every group counts in full, and no zone is cut inside a
character. -/
lemma Writes.inFull (h : g.Writes s) (hascii : ∀ c ∈ s, c.toNat < 128) :
    g.InFull ∧ ∀ z ∈ g.zone, ¬ Undivided z := by
  obtain ⟨fraction, zone, rfl, -, -, -, -, hminute, hsecond, -, hzone⟩ := h
  simp only [List.forall_mem_append] at hascii
  obtain ⟨-, -, -, -, hasciiMinute, hasciiSecond, -, hasciiZone⟩ := hascii
  refine ⟨⟨fun ds hds => ?_, fun ds hds => ?_, fun z hz hne => ?_⟩, fun z hz => ?_⟩
  · rw [hds, Option.getD_some] at hasciiMinute
    exact (hminute ds hds).exists_figures two_ne_zero hasciiMinute
  · rw [hds, Option.getD_some] at hasciiSecond
    exact (hsecond ds hds).1.exists_figures two_ne_zero hasciiSecond
  · rw [hz] at hzone
    cases hzone with
    | signed _ _ hdigits =>
        have hmem : ∀ c ∈ z.minutes, c ∈ z.firstHour :: z.secondHour :: z.minutes := fun c hc =>
          List.mem_cons_of_mem _ (List.mem_cons_of_mem _ hc)
        have hrun : Run z.minutes.length z.minutes := ⟨rfl, fun c hc => hdigits c (hmem c hc)⟩
        exact hrun.exists_figures (fun h => hne (List.length_eq_zero_iff.mp h))
          fun c hc => hasciiZone c (List.mem_cons_of_mem _ (hmem c hc))
  · rw [hz] at hzone
    cases hzone with
    | signed _ _ hdigits =>
        have hsize : ∀ c ∈ [z.firstHour, z.secondHour], c.utf8Size = 1 := fun c hc =>
          have hmem : c ∈ z.firstHour :: z.secondHour :: z.minutes :=
            List.mem_append_left z.minutes hc
          utf8Size_of_isDigit
            (isDigit_of_isDecimalDigit (hdigits c hmem)
              (hasciiZone c (List.mem_cons_of_mem _ hmem)))
        rintro ⟨-, hsum⟩
        exact hsum (by rw [hsize _ (by simp), hsize _ (by simp)])

end GeneralizedTime

end DirectoryLens
