/-
Integers of sixty-four bits.

* `Fits`: the integers that sixty-four bits hold;
* `int64?_eq_some_iff`, `Fits.exists_int64?`: an integer that fits is held as itself;
* `mem_decimal`, `mem_of_readInt64?`: decimal texts consist of digits, apart from their signs;
* `Signed.isBlank_of_mem`, `Signed.trim_eq_self`: signed numerals have no blanks;
* `readInt64?_eq_some_iff`: a text is read as the integer that it denotes, if that fits;
* `readInt64?_decimal`, `trim_decimal`: a decimal text is read as the number it was written for, and
  has no blanks.
-/
import Mathlib.Tactic
import DirectoryLens.Number.Decimal
import DirectoryLens.Proofs.Number.Numeral
import DirectoryLens.Proofs.Text.Ascii
import DirectoryLens.Proofs.Text.Blank

namespace DirectoryLens.Number

open Text

variable {k : Int} {n : Int64}

/-- Sixty-four bits hold an integer. -/
def Fits (k : Int) : Prop :=
  -0x8000_0000_0000_0000 ≤ k ∧ k < 0x8000_0000_0000_0000

instance (k : Int) : Decidable (Fits k) :=
  inferInstanceAs (Decidable (_ ∧ _))

/-- What sixty-four bits hold fits. -/
lemma fits_toInt (n : Int64) : Fits n.toInt :=
  ⟨n.le_toInt, n.toInt_lt⟩

/-- An integer that is held is the one that was given. -/
lemma int64?_eq_some_iff : int64? k = some n ↔ n.toInt = k := by
  constructor
  · intro h
    rw [int64?] at h
    split_ifs at h with hfits
    obtain rfl := Option.some_inj.mp h
    exact Int64.toInt_ofInt_of_le hfits.1 hfits.2
  · rintro rfl
    exact int64?_toInt n

/-- An integer that fits is held. -/
lemma Fits.exists_int64? (h : Fits k) : ∃ n : Int64, int64? k = some n ∧ n.toInt = k := by
  have hn : (Int64.ofInt k).toInt = k := Int64.toInt_ofInt_of_le h.1 h.2
  exact ⟨Int64.ofInt k, int64?_eq_some_iff.mpr hn, hn⟩

/-- A decimal text consists of digits, apart from its sign. -/
lemma mem_decimal {c : Char} (h : c ∈ (decimal k).toList) : c.isDigit = true ∨ c = '-' := by
  rw [decimal, String.toList_ofList, decimalChars] at h
  split_ifs at h
  · exact (List.mem_cons.mp h).elim .inr fun hdigit => .inl (isDigit_of_mem_digits hdigit)
  · exact .inl (isDigit_of_mem_digits h)

/-- No character of a signed numeral is a blank. -/
lemma Signed.isBlank_of_mem {s : List Char} {c : Char} (h : Signed s k) (hc : c ∈ s) :
    isBlank c = false := by
  rcases h.mem hc with hdigit | rfl | rfl
  · exact isBlank_of_isDigit hdigit
  · decide
  · decide

/-- A signed numeral has no blanks. -/
lemma Signed.trim_eq_self {s : List Char} (h : Signed s k) : trim s = s :=
  Text.trim_eq_self fun _ hc => h.isBlank_of_mem hc

/-- A decimal text has no blanks. -/
@[simp] lemma trim_decimal (k : Int) : trim (decimal k).toList = (decimal k).toList :=
  (readInt?_eq_some_iff.mp (readInt?_decimal k)).trim_eq_self

/-- A text is read as the integer that it denotes, if sixty-four bits hold it. -/
lemma readInt64?_eq_some_iff {s : List Char} : readInt64? s = some n ↔ Signed s n.toInt := by
  rw [readInt64?, Option.bind_eq_some_iff]
  simp only [readInt?_eq_some_iff, int64?_eq_some_iff]
  constructor
  · rintro ⟨k, hk, rfl⟩
    exact hk
  · exact fun h => ⟨_, h, rfl⟩

/-- A text that is read as an integer consists of digits, apart from its sign. -/
lemma mem_of_readInt64? {s : List Char} {c : Char} (h : readInt64? s = some n) (hc : c ∈ s) :
    c.isDigit = true ∨ c = '+' ∨ c = '-' :=
  (readInt64?_eq_some_iff.mp h).mem hc

/-- The decimal text of an integer is read as that, if sixty-four bits hold it. -/
@[simp] lemma readInt64?_decimal (k : Int) : readInt64? (decimal k).toList = int64? k := by
  simp [readInt64?]

end DirectoryLens.Number
