/-
ASCII characters by their code points.

* `isDigit_iff`, `isUpper_iff`, `isLower_iff`: digits and letters;
* `forall_ascii`: what holds of the characters of all code points below 128 holds of every ASCII
  character;
* `toNat_toLower`: the lower case of a character;
* `isBlank_of_isDigit`: digits are no blanks;
* `lt_of_toLower_lt`, `isDigit_toLower`, `toLower_eq_iff`: what the lower case of a character says
  about it;
* `isDecimalDigit_of_isDigit`, `isDigit_of_isDecimalDigit`: the digits of every script that are
  ASCII;
* `isBlank_of_isDecimalDigit`: no digit of any script is a blank.
-/
import Mathlib.Tactic
import DirectoryLens.Text.Blank
import DirectoryLens.Text.Digit

namespace DirectoryLens.Text

/-- What holds of the characters of all code points below 128 holds of every ASCII character. -/
lemma forall_ascii {P : Char → Prop} (h : ∀ n < 128, P (Char.ofNat n)) (c : Char)
    (hc : c.toNat < 128) : P c := by
  have hchar := h c.toNat hc
  rwa [Char.ofNat_toNat] at hchar

/-- ASCII digits are ten code points. -/
lemma isDigit_iff {c : Char} : c.isDigit = true ↔ 48 ≤ c.toNat ∧ c.toNat ≤ 57 :=
  Char.isDigit_iff_toNat

/-- Capital ASCII letters are code points in a row. -/
lemma isUpper_iff {c : Char} : c.isUpper = true ↔ 65 ≤ c.toNat ∧ c.toNat ≤ 90 := by
  show decide (65 ≤ c.toNat ∧ c.toNat ≤ 90) = true ↔ _
  rw [decide_eq_true_eq]

/-- Small ASCII letters are code points in a row. -/
lemma isLower_iff {c : Char} : c.isLower = true ↔ 97 ≤ c.toNat ∧ c.toNat ≤ 122 := by
  show (decide (97 ≤ c.toNat) && decide (c.toNat ≤ 122)) = true ↔ _
  rw [Bool.and_eq_true, decide_eq_true_eq, decide_eq_true_eq]

/-- The lower case of a character is another one for capital ASCII letters alone. -/
lemma toNat_toLower (c : Char) :
    c.toLower.toNat = if 65 ≤ c.toNat ∧ c.toNat ≤ 90 then c.toNat + 32 else c.toNat := by
  delta Char.toLower
  split
  · rename_i h
    have hcapital : 65 ≤ c.toNat ∧ c.toNat ≤ 90 := h
    rw [if_pos hcapital, Char.toNat_mk, UInt32.toNat_add]
    show (c.toNat + 32) % 2 ^ 32 = c.toNat + 32
    omega
  · rename_i h
    have hother : ¬ (65 ≤ c.toNat ∧ c.toNat ≤ 90) := h
    rw [if_neg hother]

/-- ASCII digits are no blanks. -/
lemma isBlank_of_isDigit {c : Char} (h : c.isDigit = true) : isBlank c = false := by
  rw [isDigit_iff] at h
  simp only [isBlank, inRanges, blankRanges, List.any_cons, List.any_nil, Bool.or_eq_false_iff,
    Bool.and_eq_false_iff, decide_eq_false_iff_not, and_true]
  omega

/-- A character whose lower case is ASCII is ASCII. -/
lemma lt_of_toLower_lt {c : Char} (h : c.toLower.toNat < 128) : c.toNat < 128 := by
  rw [toNat_toLower] at h
  split at h <;> omega

/-- The lower case of a character is a digit when the character is. -/
@[simp] lemma isDigit_toLower (c : Char) : c.toLower.isDigit = c.isDigit := by
  rw [Bool.eq_iff_iff, isDigit_iff, isDigit_iff, toNat_toLower]
  split <;> omega

/-- What is no letter is the lower case of itself alone. -/
lemma toLower_eq_iff {c d : Char} (hd : d.isAlpha = false) : c.toLower = d ↔ c = d := by
  have hletter : (d.isUpper || d.isLower) = false := hd
  rw [← Bool.not_eq_true, Bool.or_eq_true, isUpper_iff, isLower_iff] at hletter
  rw [← Char.toNat_inj, ← Char.toNat_inj, toNat_toLower]
  split <;> omega

/-- ASCII digits are digits of a script. -/
lemma isDecimalDigit_of_isDigit {c : Char} (h : c.isDigit = true) : isDecimalDigit c = true := by
  rw [isDigit_iff] at h
  rw [isDecimalDigit, List.any_eq_true]
  refine ⟨0x30, by decide, ?_⟩
  rw [Bool.and_eq_true, decide_eq_true_eq, decide_eq_true_eq]
  omega

/-- The digits of every script that are ASCII are ASCII digits. -/
lemma isDigit_of_isDecimalDigit {c : Char} (h : isDecimalDigit c = true) (hc : c.toNat < 128) :
    c.isDigit = true := by
  have hzeros : ∀ z ∈ zeroDigits, z = 0x30 ∨ 128 ≤ z := by decide
  rw [isDecimalDigit, List.any_eq_true] at h
  obtain ⟨z, hz, hrange⟩ := h
  rw [Bool.and_eq_true, decide_eq_true_eq, decide_eq_true_eq] at hrange
  rw [isDigit_iff]
  rcases hzeros z hz with rfl | hlarge <;> omega

/-- No digit of any script is a blank. -/
lemma isBlank_of_isDecimalDigit {c : Char} (h : isDecimalDigit c = true) : isBlank c = false := by
  have happart : ∀ z ∈ zeroDigits, ∀ r ∈ blankRanges, r.2 < z ∨ z + 10 ≤ r.1 := by decide
  rw [isDecimalDigit, List.any_eq_true] at h
  obtain ⟨z, hz, hrange⟩ := h
  rw [Bool.and_eq_true, decide_eq_true_eq, decide_eq_true_eq] at hrange
  rw [isBlank, inRanges, List.any_eq_false]
  intro r hr
  rw [Bool.and_eq_true, decide_eq_true_eq, decide_eq_true_eq]
  rcases happart z hz r hr with hbefore | hbehind <;> omega

end DirectoryLens.Text
