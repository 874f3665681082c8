/-
The texts of numbers, and their reading off the head of a text.

* `Json.IsFraction`, `Json.IsPower`, `Json.IsMagnitude`: a plain run of digits, a point with digits
  behind it at most, and a power of ten at most;
* `Json.IsLexeme`: a sign before these at most;
* `Json.Ends`: what stands behind a number;
* `Json.readLexeme_append`: a number is read off its text, as far as it goes;
* `Json.isLexeme_of_canonical`: the decimal text of an integer is the text of a number.
-/
import DirectoryLens.Json.Reader
import DirectoryLens.Proofs.Number.Numeral
import DirectoryLens.Proofs.Text.Run

namespace DirectoryLens.Json

open Number Text

variable {s whole fraction power rest : List Char}

/-! ### The parts of a number -/

/-- Digits, one at least. -/
def IsRun (ds : List Char) : Prop :=
  ds ≠ [] ∧ ∀ c ∈ ds, c.isDigit = true

/-- Nothing, or a point and the digits behind it. -/
inductive IsFraction : List Char → Prop
  | absent : IsFraction []
  | given {ds : List Char} (h : IsRun ds) : IsFraction ('.' :: ds)

/-- Nothing, or a power of ten, one sign before its digits at most. -/
inductive IsPower : List Char → Prop
  | absent : IsPower []
  | given {sign ds : List Char} (hsign : sign = [] ∨ sign = ['+'] ∨ sign = ['-']) (h : IsRun ds) :
      IsPower ('e' :: (sign ++ ds))

/-- The text of a number without a sign. -/
inductive IsMagnitude : List Char → Prop
  | ofParts {whole fraction power : List Char} (hwhole : Plain whole)
      (hfraction : IsFraction fraction) (hpower : IsPower power) :
      IsMagnitude (whole ++ fraction ++ power)

/-- The text of a number. -/
inductive IsLexeme : List Char → Prop
  | natural {s : List Char} (h : IsMagnitude s) : IsLexeme s
  | negative {s : List Char} (h : IsMagnitude s) : IsLexeme ('-' :: s)

/-- A text with which no number goes on. -/
def Ends (rest : List Char) : Prop :=
  ∀ c ∈ rest.head?, c.isDigit = false ∧ c ≠ '.' ∧ c ≠ 'e' ∧ c ≠ 'E'

/-- No number goes on with a power. -/
lemma IsPower.ends_append (h : IsPower power) (hrest : Ends rest) :
    ∀ c ∈ (power ++ rest).head?, c.isDigit = false ∧ c ≠ '.' := by
  cases h with
  | absent => exact fun c hc => ⟨(hrest c hc).1, (hrest c hc).2.1⟩
  | given =>
      rintro c ⟨⟩
      exact ⟨by decide, by decide⟩

/-- No digits go on with a fraction and a power. -/
lemma IsFraction.ends_append (h : IsFraction fraction) (hpower : IsPower power)
    (hrest : Ends rest) : ∀ c ∈ (fraction ++ (power ++ rest)).head?, c.isDigit = false := by
  cases h with
  | absent => exact fun c hc => (hpower.ends_append hrest c hc).1
  | given =>
      rintro c ⟨⟩
      decide

/-! ### Reading -/

/-- Digits are read off their text. -/
lemma readRun_append {ds : List Char} (h : IsRun ds)
    (hrest : ∀ c ∈ rest.head?, c.isDigit = false) :
    ∃ c ds', ds = c :: ds' ∧ (ds ++ rest).takeWhile Char.isDigit = c :: ds'
      ∧ (ds ++ rest).dropWhile Char.isDigit = rest := by
  obtain ⟨c, ds', hds⟩ := List.exists_cons_of_ne_nil h.1
  exact ⟨c, ds', hds, by rw [takeWhile_run h.2 hrest, hds], dropWhile_run h.2 hrest⟩

/-- The digits of a whole number are read off its text. -/
lemma readWhole_append (h : Plain whole) (hrest : ∀ c ∈ rest.head?, c.isDigit = false) :
    readWhole (whole ++ rest) = some (whole, rest) := by
  obtain ⟨hne, hdigit, hzero⟩ := h
  obtain ⟨c, ds, hds, htake, hdrop⟩ := readRun_append ⟨hne, hdigit⟩ hrest
  subst hds
  by_cases hc : c = '0'
  · subst hc
    obtain ⟨-, rfl⟩ := List.cons.inj (hzero rfl)
    cases rest with
    | nil => rfl
    | cons d rest =>
        have hd : d.isDigit = false := hrest d rfl
        simp [readWhole, hd]
  · rw [readWhole.eq_def]
    split
    · rename_i heq
      exact absurd (List.cons.inj heq).1 hc
    · rw [htake, hdrop]

/-- A fraction is read off its text. -/
lemma readFraction_append (h : IsFraction fraction)
    (hrest : ∀ c ∈ rest.head?, c.isDigit = false ∧ c ≠ '.') :
    readFraction (fraction ++ rest) = some (fraction, rest) := by
  cases h with
  | absent =>
      rw [List.nil_append, readFraction.eq_def]
      split
      · exact absurd rfl (hrest '.' rfl).2
      · rfl
  | given h =>
      obtain ⟨c, ds, hds, htake, hdrop⟩ := readRun_append h fun c hc => (hrest c hc).1
      rw [List.cons_append, readFraction, htake, hdrop, hds]

/-- The sign of a power is read off its text. -/
lemma readPowerSign_append {sign ds : List Char} (hsign : sign = [] ∨ sign = ['+'] ∨ sign = ['-'])
    (h : IsRun ds) : readPowerSign (sign ++ (ds ++ rest)) = (sign, ds ++ rest) := by
  rcases hsign with rfl | rfl | rfl
  · obtain ⟨hne, hdigit⟩ := h
    obtain ⟨c, ds, rfl⟩ := List.exists_cons_of_ne_nil hne
    have hc : c.isDigit = true := hdigit c List.mem_cons_self
    rw [List.nil_append, List.cons_append, readPowerSign.eq_def]
    split
    · rename_i heq
      rw [(List.cons.inj heq).1] at hc
      cases hc
    · rename_i heq
      rw [(List.cons.inj heq).1] at hc
      cases hc
    · rfl
  · rfl
  · rfl

/-- A power of ten is read off its text. -/
lemma readPower_append (h : IsPower power) (hrest : Ends rest) :
    readPower (power ++ rest) = some (power, rest) := by
  cases h with
  | absent =>
      cases rest with
      | nil => rfl
      | cons c rest =>
          obtain ⟨-, -, he, hE⟩ := hrest c rfl
          simp [readPower, he, hE]
  | given hsign h =>
      obtain ⟨c, ds, hds, htake, hdrop⟩ := readRun_append h fun c hc => (hrest c hc).1
      rw [List.cons_append, List.append_assoc, readPower, if_pos (by decide),
        readPowerSign_append hsign h]
      simp only [htake, hdrop]
      rw [hds]
      rfl

/-- The parts of a number without a sign are read off its text, one by one. -/
lemma IsMagnitude.read_append (h : IsMagnitude s) (hrest : Ends rest) :
    ∃ whole fraction power, s = whole ++ fraction ++ power
      ∧ readWhole (s ++ rest) = some (whole, fraction ++ (power ++ rest))
      ∧ readFraction (fraction ++ (power ++ rest)) = some (fraction, power ++ rest)
      ∧ readPower (power ++ rest) = some (power, rest) := by
  obtain ⟨hwhole, hfraction, hpower⟩ := h
  refine ⟨_, _, _, rfl, ?_, readFraction_append hfraction (hpower.ends_append hrest),
    readPower_append hpower hrest⟩
  rw [List.append_assoc, List.append_assoc]
  exact readWhole_append hwhole (hfraction.ends_append hpower hrest)

/-- A number without a sign starts with a digit. -/
lemma IsMagnitude.exists_eq_cons (h : IsMagnitude s) :
    ∃ c t, s = c :: t ∧ c.isDigit = true := by
  obtain ⟨⟨hne, hdigit, -⟩, -, -⟩ := h
  obtain ⟨c, ds, rfl⟩ := List.exists_cons_of_ne_nil hne
  exact ⟨c, _, rfl, hdigit c List.mem_cons_self⟩

/-- **A number is read off its text**, as far as it goes. -/
theorem readLexeme_append (h : IsLexeme s) (hrest : Ends rest) :
    readLexeme (s ++ rest) = some (String.ofList s, rest) := by
  cases h with
  | natural h =>
      obtain ⟨whole, fraction, power, hs, hw, hf, hp⟩ := h.read_append hrest
      obtain ⟨c, t, heq, hc⟩ := h.exists_eq_cons
      have hsign : ∀ u, c :: (t ++ rest) = '-' :: u → False := by
        rintro u ⟨⟩
        cases hc
      rw [heq, List.cons_append] at hw
      rw [heq, List.cons_append, readLexeme]
      · simp only [hw, hf, hp, Option.bind_eq_bind, Option.bind_some, List.nil_append]
        rw [← heq, hs]
        rfl
      · exact hsign
  | negative h =>
      obtain ⟨whole, fraction, power, hs, hw, hf, hp⟩ := h.read_append hrest
      rw [List.cons_append, readLexeme]
      simp only [hw, hf, hp, Option.bind_eq_bind, Option.bind_some]
      rw [hs]
      rfl

/-- A plain run of digits with a fraction is a number. -/
lemma isMagnitude_of_fraction (hwhole : Plain whole) (hfraction : IsFraction fraction) :
    IsMagnitude (whole ++ fraction) := by
  have hs := IsMagnitude.ofParts hwhole hfraction .absent
  rwa [List.append_nil] at hs

/-- A plain run of digits is a number. -/
lemma isMagnitude_of_plain (h : Plain s) : IsMagnitude s := by
  have hs := isMagnitude_of_fraction h .absent
  rwa [List.append_nil] at hs

/-- A canonical numeral is the text of a number. -/
lemma isLexeme_of_canonical {k : Int} (h : Canonical s k) : IsLexeme s := by
  cases h with
  | natural hplain => exact .natural (isMagnitude_of_plain hplain)
  | negative hplain => exact .negative (isMagnitude_of_plain hplain)

end DirectoryLens.Json
