/-
Hexadecimal texts and the octets that they denote.

* `Octets.IsHexDigit`: a lower-case hexadecimal digit;
* `hexValue?_eq_some_iff`, `ofHexPair?_eq_some_iff`: a digit of either case counts as its lower
  case;
* `ofHexChars?_eq_some_iff`: a text denotes octets just when its lower case is their text;
* `exists_hexChars_iff`: the texts that octets have.
-/
import Mathlib.Tactic
import DirectoryLens.Octets
import DirectoryLens.Proofs.Text.Ascii

namespace DirectoryLens.Octets

open Text

variable {c high low : Char} {s : List Char} {b : UInt8} {bs : Octets} {n : Nat}

/-! ### Digits -/

/-- A lower-case hexadecimal digit. -/
def IsHexDigit (c : Char) : Prop :=
  ('0' ≤ c ∧ c ≤ '9') ∨ ('a' ≤ c ∧ c ≤ 'f')

instance : DecidablePred IsHexDigit := fun _ => inferInstanceAs (Decidable (_ ∨ _))

/-- A character that is no greater than an ASCII one is ASCII. -/
lemma lt_of_le {d : Char} (h : c ≤ d) (hd : d.toNat < 128) : c.toNat < 128 :=
  (UInt32.le_iff_toNat_le.mp h).trans_lt hd

/-- The digits are those of the numbers below sixteen. -/
lemma isHexDigit_iff : IsHexDigit c ↔ ∃ n < 16, hexDigit n = c := by
  constructor
  · intro h
    have hascii : c.toNat < 128 := by
      rcases h with ⟨-, hle⟩ | ⟨-, hle⟩
      · exact lt_of_le hle (by decide)
      · exact lt_of_le hle (by decide)
    exact forall_ascii (P := fun c => IsHexDigit c → ∃ n < 16, hexDigit n = c)
      (by decide +kernel) c hascii h
  · rintro ⟨n, hn, rfl⟩
    have hdigit : ∀ n < 16, IsHexDigit (hexDigit n) := by decide
    exact hdigit n hn

/-- A digit has a value just when its lower case is the digit of that value. -/
lemma hexValue?_eq_some_iff : hexValue? c = some n ↔ n < 16 ∧ c.toLower = hexDigit n := by
  by_cases hascii : c.toNat < 128
  · constructor
    · exact forall_ascii (P := fun c => ∀ n ∈ hexValue? c, n < 16 ∧ c.toLower = hexDigit n)
        (by decide +kernel) c hascii n
    · rintro ⟨hn, hdigit⟩
      exact forall_ascii (P := fun c => ∀ n < 16, c.toLower = hexDigit n → hexValue? c = some n)
        (by decide +kernel) c hascii n hn hdigit
  · refine iff_of_false (fun h => ?_) (fun ⟨hn, hdigit⟩ => hascii ?_)
    · have hbeyond : ∀ d : Char, d.toNat < 128 → ¬ c ≤ d := fun d hd hle => hascii (lt_of_le hle hd)
      simp [hexValue?, hbeyond '9' (by decide), hbeyond 'f' (by decide),
        hbeyond 'F' (by decide)] at h
    · have hlt : ∀ n < 16, (hexDigit n).toNat < 128 := by decide
      exact lt_of_toLower_lt (hdigit ▸ hlt n hn)

/-- Digits are told apart by their numbers. -/
lemma hexDigit_inj {m : Nat} (hm : m < 16) (hn : n < 16) : hexDigit m = hexDigit n ↔ m = n := by
  have hinj : ∀ m < 16, ∀ n < 16, hexDigit m = hexDigit n ↔ m = n := by decide
  exact hinj m hm n hn

/-- Two digits denote an octet just when their lower case is what it is written as. -/
lemma ofHexPair?_eq_some_iff :
    ofHexPair? high low = some b ↔ [high.toLower, low.toLower] = hexPair b := by
  have hb : b.toNat < 256 := b.toNat_lt
  simp only [ofHexPair?, hexPair, Option.bind_eq_bind, Option.bind_eq_some_iff,
    hexValue?_eq_some_iff, Option.pure_def, Option.some.injEq, List.cons.injEq, and_true]
  constructor
  · rintro ⟨h, ⟨hh, hhigh⟩, l, ⟨hl, hlow⟩, rfl⟩
    have hlt : 16 * h + l < 256 := by omega
    have hvalue : (UInt8.ofNat (16 * h + l)).toNat = 16 * h + l := UInt8.toNat_ofNat_of_lt' hlt
    rw [hvalue, hhigh, hlow, hexDigit_inj hh (by omega), hexDigit_inj hl (by omega)]
    omega
  · rintro ⟨hhigh, hlow⟩
    refine ⟨_, ⟨by omega, hhigh⟩, _, ⟨by omega, hlow⟩, ?_⟩
    rw [Nat.div_add_mod, UInt8.ofNat_toNat]

/-! ### Texts -/

/-- No octets have no text. -/
@[simp] lemma hexChars_nil : hexChars [] = [] :=
  rfl

/-- The text of octets is that of the first and that of the others. -/
@[simp] lemma hexChars_cons (b : UInt8) (bs : Octets) :
    hexChars (b :: bs) = hexDigit (b.toNat / 16) :: hexDigit (b.toNat % 16) :: hexChars bs :=
  rfl

/-- **A text denotes octets just when its lower case is their text.** -/
theorem ofHexChars?_eq_some_iff : ofHexChars? s = some bs ↔ s.map Char.toLower = hexChars bs := by
  fun_induction ofHexChars? s generalizing bs with
  | case1 => cases bs <;> simp
  | case2 high low rest ih =>
      simp only [Option.bind_eq_bind, Option.bind_eq_some_iff, ofHexPair?_eq_some_iff, ih,
        Option.pure_def, Option.some.injEq]
      cases bs with
      | nil => simp
      | cons b bs => simp [hexPair, and_assoc]
  | case3 c => cases bs <;> simp

/-- Octets have two digits each. -/
@[simp] lemma length_hexChars (bs : Octets) : (hexChars bs).length = 2 * bs.length := by
  induction bs with
  | nil => rfl
  | cons b bs ih =>
      simp only [hexChars_cons, List.length_cons, ih]
      omega

/-- The text of octets consists of digits. -/
lemma isHexDigit_of_mem_hexChars (h : c ∈ hexChars bs) : IsHexDigit c := by
  obtain ⟨b, -, hc⟩ := List.mem_flatMap.mp h
  have hb : b.toNat < 256 := b.toNat_lt
  simp only [hexPair, List.mem_cons, List.not_mem_nil, or_false] at hc
  rcases hc with rfl | rfl
  · exact isHexDigit_iff.mpr ⟨_, by omega, rfl⟩
  · exact isHexDigit_iff.mpr ⟨_, by omega, rfl⟩

/-- **The texts of octets are the even numbers of digits.** -/
theorem exists_hexChars_iff :
    (∃ bs, hexChars bs = s) ↔ Even s.length ∧ ∀ c ∈ s, IsHexDigit c := by
  rw [Nat.even_iff]
  constructor
  · rintro ⟨bs, rfl⟩
    exact ⟨by simp, fun c => isHexDigit_of_mem_hexChars⟩
  · rintro ⟨heven, hdigits⟩
    fun_induction ofHexChars? s with
    | case1 => exact ⟨[], rfl⟩
    | case2 high low rest ih =>
        simp only [List.forall_mem_cons] at hdigits
        obtain ⟨hhigh, hlow, hrest⟩ := hdigits
        obtain ⟨h, hh, rfl⟩ := isHexDigit_iff.mp hhigh
        obtain ⟨l, hl, rfl⟩ := isHexDigit_iff.mp hlow
        rw [List.length_cons, List.length_cons] at heven
        obtain ⟨bs, rfl⟩ := ih (by omega) hrest
        have hlt : 16 * h + l < 256 := by omega
        have hvalue : (UInt8.ofNat (16 * h + l)).toNat = 16 * h + l := UInt8.toNat_ofNat_of_lt' hlt
        refine ⟨UInt8.ofNat (16 * h + l) :: bs, ?_⟩
        have hhalf : (16 * h + l) / 16 = h ∧ (16 * h + l) % 16 = l := by omega
        rw [hexChars_cons, hvalue, hhalf.1, hhalf.2]
    | case3 c => cases heven

end DirectoryLens.Octets
