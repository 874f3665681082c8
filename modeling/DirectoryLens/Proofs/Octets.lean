/-
Texts and their octets.

* `ofText_of_toText?`: octets that are a text are its UTF-8 form;
* `length_le_length_ofText`: a text has no more characters than octets;
* `utf8EncodeChar_of_lt`, `le_of_mem_utf8EncodeChar`: an ASCII character has one octet, its code
  point, and any other character has octets beyond ASCII alone;
* `ofText_of_forall_lt`, `count_ofText`, `exists_of_flatMap_eq_cons`: so ASCII text has an octet for
  each character, an ASCII octet stands in a text as often as its character, and one at the head of
  a text is its first character.
-/
import Mathlib.Tactic
import DirectoryLens.Octets

namespace DirectoryLens.Octets

variable {s : String} {bs : Octets}

/-- Octets that are a text are its UTF-8 form. -/
lemma ofText_of_toText? (h : toText? bs = some s) : ofText s = bs := by
  rw [toText?, String.fromUTF8?] at h
  split_ifs at h
  obtain rfl := Option.some_inj.mp h
  exact List.toByteArray_inj.mp (toByteArray_ofText _)

/-- A text has no more characters than octets. -/
lemma length_le_length_ofText (s : String) : s.toList.length ≤ (ofText s).length := by
  rw [ofText]
  induction s.toList with
  | nil => exact Nat.le_refl 0
  | cons c cs ih =>
      have hc : 0 < c.utf8Size := c.utf8Size_pos
      rw [List.flatMap_cons, List.length_append, String.length_utf8EncodeChar, List.length_cons]
      omega

/-- An ASCII character has one octet, its code point. -/
lemma utf8EncodeChar_of_lt {c : Char} (h : c.toNat < 128) :
    String.utf8EncodeChar c = [UInt8.ofNat c.toNat] := by
  have hsize : c.utf8Size = 1 := Char.utf8Size_eq_one_iff.mpr
    (UInt32.le_iff_toNat_le.mpr (Nat.le_of_lt_succ h))
  rw [String.utf8EncodeChar_eq_singleton hsize]
  rfl

/-- The octets of any other character are beyond ASCII. -/
lemma le_of_mem_utf8EncodeChar {c : Char} {b : UInt8} (h : 128 ≤ c.toNat)
    (hb : b ∈ String.utf8EncodeChar c) : 128 ≤ b.toNat := by
  have hoctet : ∀ n : Nat, 128 ≤ n % 256 → 128 ≤ (UInt8.ofNat n).toNat := by
    intro n hn
    rwa [UInt8.toNat_ofNat']
  have hc : ¬ c.val.toNat ≤ 0x7f := Nat.not_le.mpr h
  rw [String.utf8EncodeChar, if_neg hc] at hb
  -- Two, three or four octets, each with an addend that sets its highest bit.
  split_ifs at hb <;> simp only [List.mem_cons, List.not_mem_nil, or_false] at hb
  · rcases hb with rfl | rfl <;> exact hoctet _ (by omega)
  · rcases hb with rfl | rfl | rfl <;> exact hoctet _ (by omega)
  · rcases hb with rfl | rfl | rfl | rfl <;> exact hoctet _ (by omega)

/-- The octets of any other character start with one beyond ASCII. -/
lemma exists_utf8EncodeChar_eq_cons {c : Char} (h : 128 ≤ c.toNat) :
    ∃ b bs, String.utf8EncodeChar c = b :: bs ∧ 128 ≤ b.toNat := by
  have hlength : (String.utf8EncodeChar c).length = c.utf8Size := String.length_utf8EncodeChar c
  cases henc : String.utf8EncodeChar c with
  | nil =>
      rw [henc, List.length_nil] at hlength
      exact absurd hlength c.utf8Size_pos.ne
  | cons b bs => exact ⟨b, bs, rfl, le_of_mem_utf8EncodeChar h (henc ▸ List.mem_cons_self)⟩

/-- ASCII text has an octet for each character, its code point. -/
lemma ofText_of_forall_lt (h : ∀ c ∈ s.toList, c.toNat < 128) :
    ofText s = s.toList.map fun c => UInt8.ofNat c.toNat := by
  rw [ofText, List.map_eq_flatMap]
  exact List.flatMap_congr fun c hc => utf8EncodeChar_of_lt (h c hc)

/-- An ASCII octet stands in a text as often as its character. -/
lemma count_ofText {c : Char} (hc : c.toNat < 128) (s : String) :
    (ofText s).count (UInt8.ofNat c.toNat) = s.toList.count c := by
  have hoctet : (UInt8.ofNat c.toNat).toNat = c.toNat :=
    UInt8.toNat_ofNat_of_lt' (hc.trans (by decide))
  rw [ofText, List.count_flatMap]
  induction s.toList with
  | nil => rfl
  | cons d ds ih =>
      rw [List.map_cons, List.sum_cons, ih, List.count_cons, add_comm]
      congr 1
      rcases Nat.lt_or_ge d.toNat 128 with hd | hd
      · have heq : UInt8.ofNat d.toNat = UInt8.ofNat c.toNat ↔ d = c := by
          rw [← UInt8.toNat_inj, hoctet, UInt8.toNat_ofNat_of_lt' (hd.trans (by decide)),
            Char.toNat_inj]
        simp [utf8EncodeChar_of_lt hd, List.count_singleton, heq]
      · have hne : d ≠ c := by
          rintro rfl
          omega
        rw [Function.comp_apply, List.count_eq_zero_of_not_mem, if_neg (by simpa using hne)]
        intro hmem
        have := le_of_mem_utf8EncodeChar hd hmem
        omega

/-- An ASCII octet at the head of the octets of a text is its first character. -/
lemma exists_of_flatMap_eq_cons {cs : List Char} {b : UInt8}
    (h : cs.flatMap String.utf8EncodeChar = b :: bs) (hb : b.toNat < 128) :
    ∃ rest, cs = Char.ofNat b.toNat :: rest ∧ rest.flatMap String.utf8EncodeChar = bs := by
  cases cs with
  | nil => cases h
  | cons c rest =>
      rw [List.flatMap_cons] at h
      rcases Nat.lt_or_ge c.toNat 128 with hc | hc
      · rw [utf8EncodeChar_of_lt hc] at h
        obtain ⟨rfl, rfl⟩ := List.cons.inj h
        refine ⟨rest, ?_, rfl⟩
        rw [UInt8.toNat_ofNat_of_lt' (hc.trans (by decide)), Char.ofNat_toNat]
      · obtain ⟨b', bs', henc, hb'⟩ := exists_utf8EncodeChar_eq_cons hc
        rw [henc] at h
        obtain ⟨rfl, -⟩ := List.cons.inj h
        omega

end DirectoryLens.Octets
