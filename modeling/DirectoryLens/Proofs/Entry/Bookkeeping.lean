/-
Bookkeeping among the names of attributes, in any case.

* `lt_of_foldAfter`: a text whose lower case is ASCII and has no `k` is ASCII;
* `Entry.isBookkeeping_congr`: texts with one ASCII lower case are bookkeeping together;
* `Entry.isBookkeeping_eq_of_fold_eq`: so are names that fold alike.

Only two characters beyond ASCII have ASCII characters in their lower case: the sign for kelvin,
whose is `k`, and the capital dotted I, whose has a mark besides. No name of bookkeeping has either.
-/
import Mathlib.Tactic
import DirectoryLens.Entry.Basic
import DirectoryLens.Proofs.Text.Ascii

namespace DirectoryLens

open Text

/-! ### Texts with an ASCII lower case -/

namespace Text

/-- An ASCII character that no character beyond ASCII has for its lower case. -/
def IsOwn (c : Char) : Prop :=
  c.toNat < 128 ∧ c ≠ 'k'

instance (c : Char) : Decidable (IsOwn c) :=
  inferInstanceAs (Decidable (_ ∧ _))

/-- Beyond ASCII the runs of the table lead to characters beyond ASCII, the sign for kelvin
apart. -/
lemma shift_of_mem_lowerRuns : ∀ r ∈ lowerRuns, r.last < 128
    ∨ (r.first = 0x212A ∧ r.last = 0x212A ∧ r.shift = -8383)
    ∨ 128 ≤ r.first + r.shift
      ∧ (r.last + r.shift < 0xD800 ∨ 0xE000 ≤ r.first + r.shift ∧ r.last + r.shift < 0x110000) := by
  decide +kernel

/-- A character is ASCII when its lower case consists of characters that are their own. -/
lemma lt_of_lowerChar {c : Char} (h : ∀ d ∈ lowerChar c, IsOwn d) : c.toNat < 128 := by
  by_contra hc
  rw [lowerChar, if_neg hc] at h
  split_ifs at h with hdotted
  · exact absurd (h '\u0307' (by decide)) (by decide)
  · split at h
    · rename_i r hr
      have hlower := h _ (List.mem_singleton_self _)
      have hcovers : r.first ≤ c.toNat ∧ c.toNat ≤ r.last := by
        have := List.find?_some hr
        simp only [LowerRun.covers, Bool.and_eq_true, decide_eq_true_eq] at this
        exact this.1
      rcases shift_of_mem_lowerRuns r (List.mem_of_find?_eq_some hr) with
        hlast | ⟨hfirst, hlast, hshift⟩ | ⟨hlow, hrange⟩
      · omega
      · have hkelvin : c.toNat = 0x212A := by omega
        rw [hkelvin, hshift] at hlower
        exact absurd hlower (by decide)
      · -- the run leads to a code point of a character, beyond ASCII
        have hvalid : (c.toNat + r.shift).toNat.isValidChar := by
          rw [Nat.isValidChar]
          omega
        have htoNat : (Char.ofNat (c.toNat + r.shift).toNat).toNat = (c.toNat + r.shift).toNat := by
          rw [Char.ofNat, dif_pos hvalid]
          rfl
        have hlt := hlower.1
        rw [htoNat] at hlt
        omega
    · exact hc (h c (List.mem_singleton_self c)).1

/-- A text is ASCII when its lower case consists of characters that are their own. -/
lemma lt_of_foldAfter (s : List Char) : ∀ before : List Char,
    (∀ d ∈ foldAfter before s, IsOwn d) → ∀ c ∈ s, c.toNat < 128 := by
  induction s with
  | nil => exact fun _ _ => nofun
  | cons c rest ih =>
      intro before h
      rw [foldAfter, List.forall_mem_append] at h
      refine List.forall_mem_cons.mpr ⟨?_, ih _ h.2⟩
      split_ifs at h with hsigma
      · have hlower := h.1 _ (List.mem_singleton_self _)
        rw [lowerSigma] at hlower
        split at hlower <;> exact absurd hlower (by decide)
      · exact lt_of_lowerChar h.1

end Text

/-! ### Bookkeeping -/

namespace Entry

variable {x y : String}

/-- Texts with one ASCII lower case are bookkeeping together. -/
lemma isBookkeeping_congr (h : x.toList.map Char.toLower = y.toList.map Char.toLower) :
    isBookkeeping x = isBookkeeping y := by
  have hempty : x.toList.isEmpty = y.toList.isEmpty := by
    rw [← List.isEmpty_map (f := Char.toLower), h, List.isEmpty_map]
  have hlower : ∀ s : List Char, s.all Char.isDigit = (s.map Char.toLower).all Char.isDigit := by
    intro s
    rw [List.all_map]
    exact List.all_congr rfl fun c => (isDigit_toLower c).symm
  have hdigits : x.toList.all Char.isDigit = y.toList.all Char.isDigit := by
    calc x.toList.all Char.isDigit
        = (x.toList.map Char.toLower).all Char.isDigit := hlower _
      _ = (y.toList.map Char.toLower).all Char.isDigit := by rw [h]
      _ = y.toList.all Char.isDigit := (hlower _).symm
  simp only [isBookkeeping, eqIgnoringAsciiCase, hempty, hdigits, h]

/-- The ASCII lower case of bookkeeping consists of characters that are their own. -/
lemma isOwn_of_isBookkeeping (h : isBookkeeping x = true) :
    ∀ c ∈ x.toList.map Char.toLower, IsOwn c := by
  have hword : ∀ word : String, (word.toList.map Char.toLower).all (decide <| IsOwn ·) = true →
      eqIgnoringAsciiCase x.toList word.toList = true →
        ∀ c ∈ x.toList.map Char.toLower, IsOwn c := by
    intro word hown heq
    rw [eqIgnoringAsciiCase, beq_iff_eq] at heq
    rw [heq]
    exact fun c hc => of_decide_eq_true (List.all_eq_true.mp hown c hc)
  rw [isBookkeeping, Bool.or_eq_true, Bool.or_eq_true, Bool.or_eq_true] at h
  rcases h with ((h | h) | h) | h
  · rw [List.isEmpty_iff] at h
    rw [h]
    exact nofun
  · exact hword "count" (by decide) h
  · exact hword "dn" (by decide) h
  · rw [List.forall_mem_map]
    intro c hc
    have hdigit : c.toLower.isDigit = true := by
      rw [isDigit_toLower]
      exact List.all_eq_true.mp h c hc
    refine ⟨by rw [isDigit_iff] at hdigit; omega, fun hk => ?_⟩
    rw [hk] at hdigit
    cases hdigit

/-- A name that folds like bookkeeping is bookkeeping. -/
lemma isBookkeeping_of_fold_eq (hfold : fold x = fold y) (hx : isBookkeeping x = true) :
    isBookkeeping y = true := by
  have hown := isOwn_of_isBookkeeping hx
  have hascii : ∀ c ∈ x.toList, c.toNat < 128 := fun c hc =>
    lt_of_toLower_lt (hown _ (List.mem_map_of_mem hc)).1
  have hx' : foldAfter [] x.toList = x.toList.map Char.toLower :=
    foldAfter_eq_map_toLower _ _ hascii
  have hsame : foldAfter [] x.toList = foldAfter [] y.toList := String.ofList_injective hfold
  have hascii' : ∀ c ∈ y.toList, c.toNat < 128 := by
    refine lt_of_foldAfter y.toList [] ?_
    rwa [← hsame, hx']
  rw [hx', foldAfter_eq_map_toLower _ _ hascii'] at hsame
  rw [← isBookkeeping_congr hsame, hx]

/-- **Names that fold alike are bookkeeping together.** -/
theorem isBookkeeping_eq_of_fold_eq (h : fold x = fold y) : isBookkeeping x = isBookkeeping y :=
  Bool.eq_iff_iff.mpr ⟨isBookkeeping_of_fold_eq h, isBookkeeping_of_fold_eq h.symm⟩

end Entry

end DirectoryLens
