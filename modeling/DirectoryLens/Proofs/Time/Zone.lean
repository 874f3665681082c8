/-
Zones and fractions of generalized time.

* `GeneralizedTime.Head`, `writes_iff`: the digits of a date and a time of day, which a fraction and
  a zone follow;
* `GeneralizedTime.Local`: the texts that show a clock and have no zone;
* `exists_local_of_universal`: what reads with `Z` behind it is one of them;
* `Local.exists_reading`: with a zone behind it such a text reads as what it shows, less what the
  zone is ahead;
* `reading_with_zone`: how zones, blanks and fractions change the instant that is read.
-/
import DirectoryLens.Proofs.Text.Blank
import DirectoryLens.Proofs.Time.Writing

namespace DirectoryLens.GeneralizedTime

open Text Number Time Instant

variable {g : GeneralizedTime} {z : Option Zone} {c : Clock} {n : Nat} {t : Instant} {l : String}
  {s x zone : List Char}

/-! ### Texts without a zone -/

/-- A text is put together of the digits of a date and a time of day: four of the year, two of the
month, the day and the hour each, two of the minute if it is given, and then two of the second if
that is given. -/
def Head (g : GeneralizedTime) (s : List Char) : Prop :=
  s = g.year ++ (g.month ++ (g.day ++ (g.hour ++ (g.minute.getD [] ++ g.second.getD []))))
    ∧ Run 4 g.year ∧ Run 2 g.month ∧ Run 2 g.day ∧ Run 2 g.hour
    ∧ (∀ ds ∈ g.minute, Run 2 ds) ∧ (∀ ds ∈ g.second, Run 2 ds ∧ g.minute ≠ none)

/-- A text is put together of the digits of a date and a time of day, a fraction and a zone. -/
lemma writes_iff : g.Writes s ↔ ∃ head fraction zone, s = head ++ (fraction ++ zone)
    ∧ g.Head head ∧ FractionForm g.fraction fraction ∧ ZoneForm g.zone zone := by
  constructor
  · rintro ⟨fraction, zone, rfl, hyear, hmonth, hday, hhour, hminute, hsecond, hfraction, hzone⟩
    refine ⟨_, fraction, zone, ?_, ⟨rfl, hyear, hmonth, hday, hhour, hminute, hsecond⟩, hfraction,
      hzone⟩
    simp only [List.append_assoc]
  · rintro ⟨_, fraction, zone, rfl, ⟨rfl, hruns⟩, hfraction, hzone⟩
    refine ⟨fraction, zone, ?_, hruns.1, hruns.2.1, hruns.2.2.1, hruns.2.2.2.1, hruns.2.2.2.2.1,
      hruns.2.2.2.2.2, hfraction, hzone⟩
    simp only [List.append_assoc]

/-- A text shows a clock and nanoseconds, and has no zone. -/
def Local (s : List Char) (c : Clock) (n : Nat) : Prop :=
  ∃ (g : GeneralizedTime) (head fraction : List Char), s = head ++ fraction ∧ g.Head head
    ∧ FractionForm g.fraction fraction ∧ g.Shows c n

/-- A digit of any script, or the mark of a fraction. -/
def IsFigure (a : Char) : Prop :=
  isDecimalDigit a = true ∨ a = '.' ∨ a = ','

/-- The digits of a date and a time of day are digits. -/
lemma Head.isDecimalDigit (h : g.Head s) : ∀ a ∈ s, isDecimalDigit a = true := by
  obtain ⟨rfl, hyear, hmonth, hday, hhour, hminute, hsecond⟩ := h
  have hpair : ∀ {pair : Option (List Char)}, (∀ ds ∈ pair, Run 2 ds) →
      ∀ a ∈ pair.getD [], Text.isDecimalDigit a = true := by
    intro pair hrun
    cases pair with
    | none => exact nofun
    | some ds => exact (hrun ds rfl).2
  simp only [List.forall_mem_append]
  exact ⟨hyear.2, hmonth.2, hday.2, hhour.2, hpair hminute, hpair fun ds hds => (hsecond ds hds).1⟩

/-- A text without a zone has digits and marks of a fraction only. -/
lemma isFigure_of_mem {head fraction : List Char} (hhead : g.Head head)
    {f : Option (List Char)} (hfraction : FractionForm f fraction) :
    ∀ a ∈ head ++ fraction, IsFigure a := by
  rw [List.forall_mem_append]
  refine ⟨fun a ha => .inl (hhead.isDecimalDigit a ha), ?_⟩
  cases hfraction with
  | absent => exact nofun
  | given hmark _ hrun _ =>
      rw [List.forall_mem_cons]
      exact ⟨.inr hmark, fun a ha => .inl (hrun.2 a ha)⟩

/-- Digits and marks of a fraction are no blanks. -/
lemma IsFigure.isBlank {a : Char} (h : IsFigure a) : isBlank a = false := by
  rcases h with h | rfl | rfl
  · exact isBlank_of_isDecimalDigit h
  · decide
  · decide

/-- The text of a zone starts with neither, and goes on in digits. -/
lemma ZoneForm.cons {a : Char} (h : ZoneForm z (a :: s)) :
    ¬ IsFigure a ∧ ∀ b ∈ s, Text.isDecimalDigit b = true := by
  obtain ⟨hstops, hmark⟩ := h.stops
  refine ⟨?_, ?_⟩
  · rintro (hdigit | ha)
    · rw [hstops a rfl] at hdigit
      cases hdigit
    · exact hmark a rfl ha
  · cases h with
    | universal => exact nofun
    | signed _ _ hdigits => exact hdigits

/-- The text of a zone has no blanks. -/
lemma ZoneForm.not_blank (h : ZoneForm z s) : ∀ a ∈ s, isBlank a = false := by
  cases h with
  | absent => exact nofun
  | universal => exact List.forall_mem_singleton.mpr (by decide)
  | signed hsign _ hdigits =>
      rw [List.forall_mem_cons]
      refine ⟨?_, fun a ha => isBlank_of_isDecimalDigit (hdigits a ha)⟩
      rcases hsign with hsign | hsign <;> rw [hsign] <;> decide

/-- A text ends in one zone at most. -/
lemma ZoneForm.append_inj {z' : Option Zone} {zone' : List Char} (hzone : ZoneForm z zone)
    (hne : zone ≠ []) (hzone' : ZoneForm z' zone') (hs : ∀ a ∈ s, IsFigure a)
    (h : x ++ zone = s ++ zone') : x = s ∧ zone = zone' := by
  obtain ⟨a, rest, rfl⟩ := List.exists_cons_of_ne_nil hne
  obtain ⟨hsign, -⟩ := hzone.cons
  rcases List.append_eq_append_iff.mp h with ⟨between, rfl, hbetween⟩ | ⟨between, rfl, hbetween⟩
  · cases between with
    | nil => exact ⟨(List.append_nil x).symm, hbetween⟩
    | cons b between =>
        obtain ⟨rfl, -⟩ := List.cons.inj hbetween
        exact absurd (hs a (by simp)) hsign
  · cases between with
    | nil => exact ⟨List.append_nil s, hbetween.symm⟩
    | cons b between =>
        rw [hbetween] at hzone'
        exact absurd (.inl (hzone'.cons.2 a (by simp))) hsign

/-! ### Zones -/

/-- What reads with `Z` behind it is a text that shows a clock and has no zone. -/
lemma exists_local_of_universal (h : ofGeneralizedTime (l ++ "Z") = .ok t) :
    ∃ c, Local (trimStart l.toList) c t.nanos ∧ t.seconds = c.seconds := by
  obtain ⟨g, hwrites, c, offset, hshows, hahead, hseconds⟩ := ofGeneralizedTime_eq_ok_iff.mp h
  have hmark : "Z".toList = ['Z'] := rfl
  rw [String.toList_append, hmark, trim_append_of_not_blank ZoneForm.universal.not_blank nofun]
    at hwrites
  obtain ⟨head, fraction, zone, htext, hhead, hfraction, hzone⟩ := writes_iff.mp hwrites
  rw [← List.append_assoc] at htext
  obtain ⟨hstem, rfl⟩ := ZoneForm.universal.append_inj nofun hzone
    (isFigure_of_mem hhead hfraction) htext
  have hnone : g.zone = none :=
    Option.some_inj.mp ((zone?_eq_some_iff.mpr hzone).symm.trans (zone?_eq_some_iff.mpr .universal))
  rw [hnone] at hahead
  cases hahead
  exact ⟨c, ⟨g, head, fraction, hstem, hhead, hfraction, hshows⟩, hseconds.trans (sub_zero _)⟩

/-- Parts show a clock whatever their zone. -/
lemma Shows.with_zone (h : g.Shows c n) (z : Option Zone) : { g with zone := z }.Shows c n where
  __ := h
  fraction := by
    cases h.fraction with
    | absent hnone => exact .absent hnone
    | given hds hsecond hm => exact .given hds hsecond hm

/-- A text that shows a clock and has no zone has no blanks. -/
lemma Local.not_blank (h : Local s c n) : ∀ a ∈ s, isBlank a = false := by
  obtain ⟨g, head, fraction, rfl, hhead, hfraction, -⟩ := h
  exact fun a ha => (isFigure_of_mem hhead hfraction a ha).isBlank

/-- Such a text and a zone are what trimming leaves of both one behind the other. -/
lemma Local.trim_append (h : Local (trimStart s) c n) (hzone : ZoneForm z zone) :
    trim (s ++ zone) = trimStart s ++ zone := by
  rcases eq_or_ne zone [] with rfl | hne
  · rw [List.append_nil, List.append_nil, trim,
      trimEnd_eq_self fun a ha => h.not_blank a (List.mem_of_getLast? ha)]
  · exact trim_append_of_not_blank hzone.not_blank hne s

/-- With what stands for a zone behind it such a text is cut into parts that show its clock. -/
lemma Local.exists_writes (h : Local (trimStart s) c n) (hzone : ZoneForm z zone) :
    ∃ g : GeneralizedTime, g.Writes (trim (s ++ zone)) ∧ g.Shows c n ∧ g.zone = z := by
  rw [h.trim_append hzone]
  obtain ⟨g, head, fraction, htext, hhead, hfraction, hshows⟩ := h
  refine ⟨{ g with zone := z }, writes_iff.mpr ⟨head, fraction, zone, ?_, hhead, hfraction, hzone⟩,
    hshows.with_zone z, rfl⟩
  rw [htext, List.append_assoc]

/-- **A text without a zone reads, with a zone behind it, as what it shows**, less what the zone is
ahead. -/
theorem Local.exists_reading (h : Local (trimStart l.toList) c n) (behind : String)
    (hzone : ZoneForm z behind.toList) {offset : Int} (hahead : Ahead z offset) :
    ∃ t, ofGeneralizedTime (l ++ behind) = .ok t ∧ t.seconds = c.seconds - offset
      ∧ t.nanos = n := by
  obtain ⟨g, hwrites, hshows, rfl⟩ := h.exists_writes hzone
  rw [← String.toList_append] at hwrites
  exact ⟨⟨c.seconds - offset, n, hwrites.admissible hshows hahead⟩,
    ofGeneralizedTime_eq_ok_iff.mpr ⟨g, hwrites, c, offset, hshows, hahead, rfl⟩, rfl, rfl⟩

/-- With `Z` behind it such a text reads as what it shows. -/
lemma Local.exists_reading_universal (h : Local (trimStart l.toList) c n) :
    ∃ t, ofGeneralizedTime (l ++ "Z") = .ok t ∧ t.seconds = c.seconds ∧ t.nanos = n := by
  obtain ⟨t, ht, hseconds, hnanos⟩ := h.exists_reading "Z" .universal .universal
  exact ⟨t, ht, hseconds.trans (sub_zero _), hnanos⟩

/-- What a text without a zone makes with a zone behind it is given by what it shows and by what the
zone is ahead. -/
lemma Local.reading_eq (h : Local (trimStart l.toList) c n) {behind : String}
    (hzone : ZoneForm z behind.toList) :
    ofGeneralizedTime (l ++ behind) = zoneOffset z >>= fun offset =>
      match ofParts? (c.seconds - offset) n with
      | some t => .ok t
      | none => .error .malformed := by
  obtain ⟨g, hwrites, hshows, rfl⟩ := h.exists_writes hzone
  rw [ofGeneralizedTime, String.toList_append, parse?_eq_some_iff.mpr hwrites]
  exact hwrites.instant_eq_of_shows hshows

/-! ### Hours and minutes -/

/-- Two ASCII digits denote a number. -/
def TwoDigits (ds : List Char) (n : Nat) : Prop :=
  ds.length = 2 ∧ Figures ds n

/-- A text reads as an instant so many seconds behind another. -/
def ReadsBehind (s : String) (t : Instant) (seconds : Int) : Prop :=
  ∃ u, ofGeneralizedTime s = .ok u ∧ u.seconds = t.seconds + seconds ∧ u.nanos = t.nanos

variable {sign : Char} {hh mm : List Char} {hours minutes : Nat}

/-- Two digits, one by one. -/
lemma TwoDigits.exists_eq (h : TwoDigits hh hours) : ∃ first second, hh = [first, second] :=
  List.length_eq_two.mp h.1

/-- A sign, two digits of hours and two of minutes at most are the text of a zone. -/
lemma zoneForm_of_twoDigits {first second : Char} (hsign : sign = '+' ∨ sign = '-')
    (hhours : TwoDigits [first, second] hours) (hminutes : mm = [] ∨ TwoDigits mm minutes) :
    ZoneForm (some ⟨sign, first, second, mm⟩)
      (String.ofList (sign :: ([first, second] ++ mm))).toList := by
  rw [String.toList_ofList]
  refine .signed (z := ⟨sign, first, second, mm⟩) hsign ?_ fun a ha => ?_
  · rcases hminutes with rfl | hminutes
    · exact .inl rfl
    · exact .inr hminutes.1
  · rcases List.mem_append.mp (show a ∈ [first, second] ++ mm from ha) with ha | ha
    · exact isDecimalDigit_of_isDigit (hhours.2.2.1 a ha)
    · rcases hminutes with rfl | hminutes
      · cases ha
      · exact isDecimalDigit_of_isDigit (hminutes.2.2.1 a ha)

/-- A zone a day or more off is refused. -/
lemma offset_of_le {zone : Zone} (hhours : Figures [zone.firstHour, zone.secondHour] hours)
    (hminutes : Counts zone.minutes minutes) (hday : 86400 ≤ 3600 * hours + 60 * minutes) :
    zone.offset = .error .malformed := by
  have hsize := fun a ha => utf8Size_of_isDigit (hhours.2.1 a ha)
  rw [offset_of_utf8Size ⟨hsize _ (by simp), hsize _ (by simp)⟩, readDigits?_eq_some_iff.mpr hhours,
    Option.elim_some]
  dsimp only
  rw [getD_readDigits?_eq_iff.mpr hminutes, if_pos hday]

/-- A text without a zone reads, with a zone less than a day off behind it, as an instant so much
before or behind what it reads as alone. -/
lemma Local.readsBehind (h : Local (trimStart l.toList) c t.nanos) (ht : t.seconds = c.seconds)
    (hsign : sign = '+' ∨ sign = '-') (hhours : TwoDigits hh hours)
    (hminutes : TwoDigits mm minutes) (hday : 3600 * hours + 60 * minutes < 86400) :
    ReadsBehind (l ++ String.ofList (sign :: (hh ++ mm))) t
      (if sign = '-' then 3600 * hours + 60 * minutes else -(3600 * hours + 60 * minutes)) := by
  obtain ⟨first, second, rfl⟩ := hhours.exists_eq
  obtain ⟨u, hu, hseconds, hnanos⟩ := h.exists_reading _
    (zoneForm_of_twoDigits hsign hhours (.inr hminutes)) (.signed hhours.2 (.inl hminutes.2) hday)
  refine ⟨u, hu, ?_, hnanos⟩
  rw [hseconds, ht]
  split_ifs <;> push_cast <;> ring

/-- With a zone of a day or more behind it no such text reads. -/
lemma Local.malformed (h : Local (trimStart l.toList) c n) (hsign : sign = '+' ∨ sign = '-')
    (hhours : TwoDigits hh hours) (hminutes : TwoDigits mm minutes)
    (hday : 86400 ≤ 3600 * hours + 60 * minutes) :
    ofGeneralizedTime (l ++ String.ofList (sign :: (hh ++ mm))) = .error .malformed := by
  obtain ⟨first, second, rfl⟩ := hhours.exists_eq
  have hoffset : zoneOffset (some ⟨sign, first, second, mm⟩) = .error .malformed :=
    offset_of_le hhours.2 (.inl hminutes.2) hday
  rw [h.reading_eq (zoneForm_of_twoDigits hsign hhours (.inr hminutes)), hoffset]
  rfl

/-- Hours alone make the same of such a text as with zero minutes behind them. -/
lemma Local.reading_hours (h : Local (trimStart l.toList) c n) (hsign : sign = '+' ∨ sign = '-')
    (hhours : TwoDigits hh hours) :
    ofGeneralizedTime (l ++ String.ofList (sign :: hh))
      = ofGeneralizedTime (l ++ String.ofList (sign :: (hh ++ ['0', '0']))) := by
  obtain ⟨first, second, rfl⟩ := hhours.exists_eq
  have hzero : TwoDigits ['0', '0'] 0 := ⟨rfl, readDigits?_eq_some_iff.mp rfl⟩
  have halone := zoneForm_of_twoDigits hsign hhours
    (show ([] : List Char) = [] ∨ TwoDigits [] 0 from .inl rfl)
  have hoffset : zoneOffset (some ⟨sign, first, second, []⟩)
      = zoneOffset (some ⟨sign, first, second, ['0', '0']⟩) := rfl
  rw [List.append_nil] at halone
  rw [h.reading_eq halone, h.reading_eq (zoneForm_of_twoDigits hsign hhours (.inr hzero)), hoffset]

/-! ### Fractions -/

/-- One to nine digits denote nanoseconds when they are filled up to nine with zeros behind them. -/
def FractionDigits (ds : List Char) (n : Nat) : Prop :=
  1 ≤ ds.length ∧ ds.length ≤ 9 ∧ Figures (ds ++ List.replicate (9 - ds.length) '0') n

/-- A text without a zone that shows nanoseconds is one that shows none, with their digits behind a
mark, or shows none itself. -/
lemma Local.exists_fraction (h : Local s c n) : ∃ head fraction, s = head ++ fraction
    ∧ Local head c 0
    ∧ ((fraction = [] ∧ n = 0) ∨ ∃ mark ds, (mark = '.' ∨ mark = ',') ∧ fraction = mark :: ds
      ∧ FractionDigits ds n) := by
  obtain ⟨g, head, fraction, rfl, hhead, hfraction, hshows⟩ := h
  refine ⟨head, fraction, rfl, ⟨{ g with fraction := none }, head, [], (List.append_nil _).symm,
    hhead, .absent, { hshows with fraction := .absent rfl }⟩, ?_⟩
  cases hf : g.fraction with
  | none =>
      rw [hf] at hfraction
      cases hfraction
      cases hshows.fraction with
      | absent => exact .inl ⟨rfl, rfl⟩
      | given hds => exact absurd (hf.symm.trans hds) nofun
  | some ds =>
      rw [hf] at hfraction
      cases hfraction with
      | @given mark _ hmark hone _ hnine =>
          cases hshows.fraction with
          | absent hnone => exact absurd (hf.symm.trans hnone) nofun
          | given hds _ hm =>
              obtain rfl := Option.some_inj.mp (hf.symm.trans hds)
              exact .inr ⟨mark, _, hmark, rfl, hone, hnine,
                (figures_append_zeros hm.1 _).mpr ⟨_, hm, rfl⟩⟩

/-- The digits of a date and a time of day are fourteen just when the seconds are given. -/
lemma Head.length_eq_iff (h : g.Head s) :
    (s.length = 14 ↔ g.second ≠ none) ∧ s.length ≤ 14 := by
  obtain ⟨rfl, hyear, hmonth, hday, hhour, hminute, hsecond⟩ := h
  simp only [List.length_append, hyear.1, hmonth.1, hday.1, hhour.1]
  cases hm : g.minute with
  | none =>
      have hnone : g.second = none :=
        Option.eq_none_iff_forall_not_mem.mpr fun ds hds => (hsecond ds hds).2 hm
      simp [hnone]
  | some ms =>
      have hms := (hminute ms hm).1
      cases hs : g.second with
      | none => simp [hms]
      | some ss => simp [hms, (hsecond ss hs).1.1]

/-- Fourteen digits without a fraction give the seconds, and a fraction behind them counts. -/
lemma Local.append_fraction (h : Local s c n) (hs : s.length = 14) {mark : Char} {ds : List Char}
    {m : Nat} (hmark : mark = '.' ∨ mark = ',') (hds : FractionDigits ds m) :
    Local (s ++ mark :: ds) c m := by
  obtain ⟨g, head, fraction, rfl, hhead, hfraction, hshows⟩ := h
  obtain ⟨hlength, hle⟩ := hhead.length_eq_iff
  rw [List.length_append] at hs
  have hnone : g.fraction = none := by
    -- before a fraction the seconds are given, which takes fourteen digits already
    cases hshows.fraction with
    | absent hnone => exact hnone
    | given hf hsecond _ =>
        rw [hf] at hfraction
        cases hfraction
        have hfourteen := hlength.mpr hsecond
        rw [List.length_cons] at hs
        omega
  rw [hnone] at hfraction
  cases hfraction
  have hsecond : g.second ≠ none := hlength.mp hs
  obtain ⟨hone, hnine, hfigures⟩ := hds
  have hne : ds ≠ [] := List.ne_nil_of_length_pos hone
  obtain ⟨k, hk, rfl⟩ := (figures_append_zeros hne _).mp hfigures
  have hdigit : Run ds.length ds := ⟨rfl, fun a ha => isDecimalDigit_of_isDigit (hk.2.1 a ha)⟩
  refine ⟨{ g with fraction := some ds }, head, mark :: ds, ?_, hhead,
    .given hmark hone hdigit hnine, { hshows with fraction := .given rfl hsecond hk }⟩
  rw [List.append_nil]

/-- A text is a text without a fraction and its fraction, whatever blanks are before it. -/
lemma Local.exists_without_fraction (h : Local (trimStart l.toList) c n) :
    ∃ d fraction, l = d ++ String.ofList fraction ∧ Local (trimStart d.toList) c 0
      ∧ ((fraction = [] ∧ n = 0) ∨ ∃ mark ds, (mark = '.' ∨ mark = ',') ∧ fraction = mark :: ds
        ∧ FractionDigits ds n) := by
  obtain ⟨before, hblank, hl⟩ := exists_blanks_append l.toList
  obtain ⟨head, fraction, htext, hhead, hfraction⟩ := h.exists_fraction
  have hstart : trimStart (String.ofList (before ++ head)).toList = head := by
    rw [String.toList_ofList, trimStart_append, if_pos (trimStart_eq_nil hblank),
      trimStart_eq_self fun a ha => hhead.not_blank a (List.mem_of_head? ha)]
  refine ⟨String.ofList (before ++ head), fraction, ?_, by rwa [hstart], hfraction⟩
  rw [← String.ofList_append, List.append_assoc, ← htext, ← hl, String.ofList_toList]

/-! ### The instant that is read -/

/-- **Zones, blanks and fractions of generalized time.** Let a text read as an instant with `Z`
behind it. Then it reads as that instant alone; with hours and minutes of a zone that together are
less than a day it reads as an instant by so much earlier, or later where the sign is a hyphen, and
with more it does not read; hours alone are the same as with zero minutes behind them. Blanks around
a text change nothing. A fraction at the end of the text is the nanoseconds of the instant, its
digits filled up to nine with zeros behind them, and adds nothing else; where the text has its
seconds and no fraction, one that is written behind it counts so. -/
theorem reading_with_zone (h : ofGeneralizedTime (l ++ "Z") = .ok t) :
    ofGeneralizedTime l = .ok t
      ∧ (∀ hh mm hours minutes, TwoDigits hh hours → TwoDigits mm minutes →
        (3600 * hours + 60 * minutes < 86400 →
          ReadsBehind (l ++ String.ofList ('+' :: (hh ++ mm))) t (-(3600 * hours + 60 * minutes))
          ∧ ReadsBehind (l ++ String.ofList ('-' :: (hh ++ mm))) t (3600 * hours + 60 * minutes))
        ∧ (86400 ≤ 3600 * hours + 60 * minutes →
          ofGeneralizedTime (l ++ String.ofList ('+' :: (hh ++ mm))) = .error .malformed
          ∧ ofGeneralizedTime (l ++ String.ofList ('-' :: (hh ++ mm))) = .error .malformed))
      ∧ (∀ sign hh hours, sign = '+' ∨ sign = '-' → TwoDigits hh hours →
        ofGeneralizedTime (l ++ String.ofList (sign :: hh))
          = ofGeneralizedTime (l ++ String.ofList (sign :: (hh ++ ['0', '0']))))
      ∧ (∀ s before behind : String, (∀ a ∈ before.toList, isBlank a = true) →
        (∀ a ∈ behind.toList, isBlank a = true) →
        ofGeneralizedTime (before ++ s ++ behind) = ofGeneralizedTime s)
      ∧ (∃ d fraction, l = d ++ String.ofList fraction
        ∧ ofGeneralizedTime (d ++ "Z") = .ok t.whole
        ∧ ((fraction = [] ∧ t.nanos = 0)
          ∨ ∃ mark ds, (mark = '.' ∨ mark = ',') ∧ fraction = mark :: ds
            ∧ FractionDigits ds t.nanos))
      ∧ ((trimStart l.toList).length = 14 → ∀ mark ds m, mark = '.' ∨ mark = ',' →
        FractionDigits ds m →
        ∃ u, ofGeneralizedTime (l ++ String.ofList (mark :: ds) ++ "Z") = .ok u
          ∧ u.seconds = t.seconds ∧ u.nanos = m) := by
  obtain ⟨c, hlocal, hseconds⟩ := exists_local_of_universal h
  refine ⟨?_, fun hh mm hours minutes hhours hminutes => ⟨fun hday => ⟨?_, ?_⟩, fun hday =>
    ⟨hlocal.malformed (.inl rfl) hhours hminutes hday,
      hlocal.malformed (.inr rfl) hhours hminutes hday⟩⟩,
    fun sign hh hours hsign hhours => hlocal.reading_hours hsign hhours,
    fun s before behind hbefore hbehind => ?_, ?_, fun hlength mark ds m hmark hds => ?_⟩
  · obtain ⟨u, hu, hback, hnanos⟩ := hlocal.exists_reading "" .absent .universal
    rw [String.append_empty] at hu
    rw [hu, eq_of_seconds_eq ((hback.trans (sub_zero _)).trans hseconds.symm) hnanos]
  · exact hlocal.readsBehind hseconds (.inl rfl) hhours hminutes hday
  · exact hlocal.readsBehind hseconds (.inr rfl) hhours hminutes hday
  · rw [ofGeneralizedTime, ofGeneralizedTime, String.toList_append, String.toList_append,
      trim_append_append hbefore hbehind]
  · obtain ⟨d, fraction, hl, hhead, hfraction⟩ := hlocal.exists_without_fraction
    obtain ⟨u, hu, hback, hnanos⟩ := hhead.exists_reading_universal
    have hwhole : u = t.whole := eq_of_seconds_eq (hback.trans hseconds.symm) hnanos
    exact ⟨d, fraction, hl, hu.trans (congrArg Except.ok hwhole), hfraction⟩
  · have hne : trimStart l.toList ≠ [] := List.ne_nil_of_length_pos (by omega)
    have hstart : trimStart (l ++ String.ofList (mark :: ds)).toList
        = trimStart l.toList ++ mark :: ds := by
      rw [String.toList_append, String.toList_ofList, trimStart_append, if_neg hne]
    have hlonger := hlocal.append_fraction hlength hmark hds
    rw [← hstart] at hlonger
    obtain ⟨u, hu, hback, hnanos⟩ := hlonger.exists_reading_universal
    exact ⟨u, hu, hback.trans hseconds.symm, hnanos⟩

/-- The last second of the year 9999 reads in the year 10000 with a zone less than a day behind, and
does not read with one a day ahead; the first second of the year zero reads in the year before with
a zone ahead, and takes a fraction. -/
theorem reading_with_zone_yearEnds :
    let last : Instant := ⟨253402300799, 500000000, by decide⟩
    let first : Instant := ⟨-62167219200, 0, by decide⟩
    ofGeneralizedTime "99991231235959.5" = .ok last
      ∧ ReadsBehind "99991231235959.5-2359" last 86340
      ∧ ofGeneralizedTime "99991231235959.5+2400" = .error .malformed
      ∧ ReadsBehind "00000101000000+0099" first (-5940)
      ∧ ∃ u, ofGeneralizedTime "00000101000000,25Z" = .ok u
        ∧ u.seconds = first.seconds ∧ u.nanos = 250000000 := by
  intro last first
  have hlast : ofGeneralizedTime ("99991231235959.5" ++ "Z") = .ok last := rfl
  have hfirst : ofGeneralizedTime ("00000101000000" ++ "Z") = .ok first := rfl
  have hdigits : ∀ {ds n}, ds.length = 2 → readDigits? ds = some n → TwoDigits ds n :=
    fun hlength hread => ⟨hlength, readDigits?_eq_some_iff.mp hread⟩
  have hfraction : FractionDigits ['2', '5'] 250000000 :=
    ⟨by decide, by decide, readDigits?_eq_some_iff.mp rfl⟩
  obtain ⟨halone, hzones, -⟩ := reading_with_zone hlast
  obtain ⟨-, hzones', -, -, -, hadd⟩ := reading_with_zone hfirst
  exact ⟨halone, ((hzones ['2', '3'] ['5', '9'] 23 59 (hdigits rfl rfl) (hdigits rfl rfl)).1
      (by decide)).2,
    ((hzones ['2', '4'] ['0', '0'] 24 0 (hdigits rfl rfl) (hdigits rfl rfl)).2 (by decide)).1,
    ((hzones' ['0', '0'] ['9', '9'] 0 99 (hdigits rfl rfl) (hdigits rfl rfl)).1 (by decide)).1,
    hadd rfl ',' ['2', '5'] 250000000 (.inr rfl) hfraction⟩

end DirectoryLens.GeneralizedTime
