/-
Texts that differ in the case of their ASCII letters alone.

* `CaseAlike`: two texts that do;
* `lowerChar_toLower`, `inRanges_toLower`: what folding asks of a character does not depend on the
  case of an ASCII letter;
* `CaseAlike.fold_eq`: such texts fold alike.
-/
import Mathlib
import DirectoryLens.Proofs.Text.Ascii
import DirectoryLens.Text.Fold

namespace DirectoryLens.Text

/-- Two texts that differ at most in the case of their ASCII letters. -/
def CaseAlike (s t : String) : Prop :=
  eqIgnoringAsciiCase s.toList t.toList = true

instance (s t : String) : Decidable (CaseAlike s t) :=
  inferInstanceAs (Decidable (_ = true))

namespace CaseAlike

variable {s t : String}

/-- Such texts have one lower case. -/
lemma map_toLower_eq (h : CaseAlike s t) : s.toList.map Char.toLower = t.toList.map Char.toLower :=
  beq_iff_eq.mp h

/-- A text is like itself. -/
lemma refl (s : String) : CaseAlike s s :=
  beq_self_eq_true _

end CaseAlike

/-! ### Characters -/

/-- A character is folded as its lower case is. -/
lemma lowerChar_toLower (c : Char) : lowerChar c.toLower = lowerChar c := by
  by_cases h : c.isUpper
  · rw [isUpper_iff] at h
    have hlower : c.toLower.toNat < 128 := by
      rw [toNat_toLower, if_pos h]
      omega
    rw [lowerChar, lowerChar, if_pos hlower, if_pos (by omega), Char.toLower_toLower_eq_toLower]
  · rw [Char.toLower_eq_of_not_isUpper h]

/-- No letter has capital sigma for its lower case but capital sigma. -/
lemma toLower_eq_sigma_iff (c : Char) : c.toLower = 'Σ' ↔ c = 'Σ' := by
  by_cases h : c.isUpper
  · rw [isUpper_iff] at h
    have hlower : c.toLower.toNat ≤ 122 := by
      rw [toNat_toLower, if_pos h]
      omega
    constructor
    · rintro heq
      rw [heq] at hlower
      exact absurd hlower (by decide)
    · rintro rfl
      exact absurd h.2 (by decide)
  · rw [Char.toLower_eq_of_not_isUpper h]

/-- A table that has each capital ASCII letter with its lower case, or neither, has a character with
its lower case. -/
lemma inRanges_toLower {ranges : List (Nat × Nat)}
    (h : ∀ n < 26, inRanges ranges (65 + n + 32) = inRanges ranges (65 + n)) (c : Char) :
    inRanges ranges c.toLower.toNat = inRanges ranges c.toNat := by
  rw [toNat_toLower]
  split
  · rename_i hcapital
    have hletter := h (c.toNat - 65) (by omega)
    rwa [Nat.add_sub_cancel' hcapital.1] at hletter
  · rfl

/-- ASCII letters carry case in either case. -/
lemma cased_toLower (c : Char) :
    inRanges casedRanges c.toLower.toNat = inRanges casedRanges c.toNat :=
  inRanges_toLower (by decide +kernel) c

/-- No ASCII letter is looked through. -/
lemma ignorable_toLower (c : Char) :
    inRanges ignorableRanges c.toLower.toNat = inRanges ignorableRanges c.toNat :=
  inRanges_toLower (by decide +kernel) c

/-! ### Texts -/

/-- The nearest character carries case or does not in either case of the letters. -/
lemma meetsCased_map_toLower (s : List Char) :
    meetsCased (s.map Char.toLower) = meetsCased s := by
  have hdrop : (s.map Char.toLower).dropWhile (fun c => inRanges ignorableRanges c.toNat)
      = (s.dropWhile fun c => inRanges ignorableRanges c.toNat).map Char.toLower := by
    rw [List.dropWhile_map]
    congr 1
    exact congrArg (List.dropWhile · s) (funext ignorable_toLower)
  rw [meetsCased, meetsCased, hdrop]
  cases s.dropWhile fun c => inRanges ignorableRanges c.toNat with
  | nil => rfl
  | cons c rest => exact cased_toLower c

/-- A text is folded as its lower case is. -/
lemma foldAfter_map_toLower (s : List Char) : ∀ before : List Char,
    foldAfter (before.map Char.toLower) (s.map Char.toLower) = foldAfter before s := by
  induction s with
  | nil => exact fun _ => rfl
  | cons c rest ih =>
      intro before
      have hrest := ih (c :: before)
      rw [List.map_cons] at hrest
      rw [List.map_cons, foldAfter, foldAfter, hrest, lowerSigma, lowerSigma,
        meetsCased_map_toLower, meetsCased_map_toLower, lowerChar_toLower]
      simp only [toLower_eq_sigma_iff]

/-- **Texts that differ in the case of their ASCII letters alone fold alike.** -/
theorem CaseAlike.fold_eq {s t : String} (h : CaseAlike s t) : fold s = fold t := by
  rw [fold, fold, ← foldAfter_map_toLower s.toList [], h.map_toLower_eq, foldAfter_map_toLower]

end DirectoryLens.Text
