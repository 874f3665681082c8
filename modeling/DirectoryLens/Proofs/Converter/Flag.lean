/-
Numbers at the head of a text, and flags in them.

* `exists_leadingInteger?_eq`: a signed numeral with blanks around it is read as its integer;
* `leadingInteger?_decimal`: the number at the head of a decimal text is the one it was written for;
* `integer_fromDirectory`: the converter for integers reads the number at the head of a text;
* `lowBits_and_eq_iff`: the low half of a number has the bits of a mask when the number has them;
* `flag_fromDirectory_of_leading`, `flag_fromDirectory`: the converter for a flag reads these bits.
-/
import Mathlib.Tactic
import DirectoryLens.Converter.Scalar
import DirectoryLens.Proofs.Number.Int64
import DirectoryLens.Proofs.Text.Run

namespace DirectoryLens

open Number Text

namespace Converter

/-! ### Numbers at the head of a text -/

/-- A signed numeral is the run at the head of a text, if no digit follows it. -/
lemma signedRun_append {s rest : List Char} {k : Int} (h : Signed s k)
    (hrest : ∀ c ∈ rest.head?, c.isDigit = false) : signedRun (s ++ rest) = s := by
  cases h with
  | bare hds =>
      cases s with
      | nil => exact absurd rfl hds.1
      | cons c ds =>
          have hsign : ¬ ((c = '+' || c = '-') = true) := by
            rw [Bool.or_eq_true, decide_eq_true_eq, decide_eq_true_eq]
            rintro (rfl | rfl) <;> exact absurd hds.isDigit_head (by decide)
          rw [List.cons_append, signedRun, if_neg hsign, ← List.cons_append,
            takeWhile_run hds.2.1 hrest]
  | plus hds => rw [List.cons_append, signedRun, if_pos (by decide), takeWhile_run hds.2.1 hrest]
  | minus hds => rw [List.cons_append, signedRun, if_pos (by decide), takeWhile_run hds.2.1 hrest]

/-- A text that is a signed numeral, blanks around it allowed, is read as its integer. -/
lemma exists_leadingInteger?_eq {t : String} {k : Int} (h : Signed (trim t.toList) k)
    (hfits : Fits k) : ∃ n : Int64, leadingInteger? t = some n ∧ n.toInt = k := by
  obtain ⟨behind, hbehind, htrim⟩ := exists_trimStart_eq t.toList
  have hhead : ∀ c ∈ behind.head?, c.isDigit = false := fun c hc => by
    rw [Bool.eq_false_iff]
    intro hdigit
    have hblank := hbehind c (List.mem_of_head? hc)
    rw [isBlank_of_isDigit hdigit] at hblank
    cases hblank
  obtain ⟨n, hn, htoInt⟩ := hfits.exists_int64?
  refine ⟨n, ?_, htoInt⟩
  rw [leadingInteger?, htrim, signedRun_append h hhead, readInt64?, readInt?_eq_some_iff.mpr h,
    Option.bind_some, hn]

/-- The number at the head of a decimal text is the one it was written for. -/
@[simp] lemma leadingInteger?_decimal (n : Int64) : leadingInteger? (decimal n.toInt) = some n := by
  have hsigned : Signed (trim (decimal n.toInt).toList) n.toInt := by
    rw [trim_decimal]
    exact readInt?_eq_some_iff.mp (readInt?_decimal n.toInt)
  obtain ⟨m, hm, htoInt⟩ := exists_leadingInteger?_eq hsigned (fits_toInt n)
  rw [hm, Int64.toInt_inj.mp htoInt]

/-- The converter for integers reads the number at the head of a text. -/
lemma integer_fromDirectory {raw : RawValue} {t : String} {n : Int64} (ht : raw.text? = some t)
    (hn : leadingInteger? t = some n) : integer.fromDirectory raw = .ok (.integer n) := by
  simp only [integer, requireText, ht]
  change (expectForm "int" t .integer (leadingInteger? t)).map Value.integer = _
  rw [hn]
  rfl

/-! ### Bits -/

/-- A number of sixty-four bits has the bits of a mask when its low half has them. -/
lemma setWidth_and_eq_iff (x : BitVec 64) (m : BitVec 32) :
    x.setWidth 32 &&& m = m ↔ x &&& m.setWidth 64 = m.setWidth 64 := by
  constructor
  · intro h
    refine BitVec.eq_of_getLsbD_eq fun i hi => ?_
    have hbit := congrArg (fun b => b.getLsbD i) h
    simp only [BitVec.getLsbD_and, BitVec.getLsbD_setWidth] at hbit ⊢
    by_cases hi32 : i < 32
    · simpa [hi, hi32] using hbit
    · simp [BitVec.getLsbD_of_ge m i (by omega)]
  · intro h
    refine BitVec.eq_of_getLsbD_eq fun i hi => ?_
    have hbit := congrArg (fun b => b.getLsbD i) h
    have hi64 : i < 64 := by omega
    simpa [hi, hi64] using hbit

/-- The low bits of a number are those of its two's complement. -/
lemma toBitVec_lowBits (n : Int64) : (lowBits n).toBitVec = n.toBitVec.setWidth 32 := by
  refine BitVec.eq_of_toNat_eq ?_
  have hn := BitVec.toInt_eq_toNat_cond n.toBitVec
  have hlt := n.toBitVec.isLt
  rw [Int64.toInt_toBitVec] at hn
  rw [lowBits, UInt32.toBitVec_ofNat', BitVec.toNat_ofNat, BitVec.toNat_setWidth, hn]
  split <;> omega

/-- The low half of a number has the bits of a mask when the number has them. -/
lemma lowBits_and_eq_iff (n : Int64) (mask : UInt32) :
    lowBits n &&& mask = mask
      ↔ n &&& Int64.ofInt mask.toNat = Int64.ofInt mask.toNat := by
  have hmask : (Int64.ofInt mask.toNat).toBitVec = mask.toBitVec.setWidth 64 := by
    refine BitVec.eq_of_toNat_eq ?_
    rw [Int64.toBitVec_ofInt, BitVec.ofInt_natCast, BitVec.toNat_ofNat, BitVec.toNat_setWidth]
    rfl
  rw [← UInt32.toBitVec_inj, ← Int64.toBitVec_inj, UInt32.toBitVec_and, Int64.toBitVec_and,
    toBitVec_lowBits, hmask, setWidth_and_eq_iff]

/-- The converter for a flag reads whether the bits of its mask are set in the number at the head
of a text. -/
lemma flag_fromDirectory_of_leading (name : String) (mask : UInt32) {raw : RawValue} {t : String}
    {n : Int64} (ht : raw.text? = some t) (hn : leadingInteger? t = some n) :
    (flag name mask).fromDirectory raw = .ok (.boolean (lowBits n &&& mask == mask)) := by
  simp only [flag, requireText, ht]
  change (expectForm name t .bitfield (leadingInteger? t)
    >>= fun n => Except.ok (Value.boolean (lowBits n &&& mask == mask))) = _
  rw [hn]
  rfl

/-- The converter for a flag reads whether the bits of its mask are set. -/
lemma flag_fromDirectory (name : String) (mask : UInt32) {raw : RawValue} {n : Int64}
    (h : raw.text? = some (decimal n.toInt)) :
    (flag name mask).fromDirectory raw = .ok (.boolean (lowBits n &&& mask == mask)) :=
  flag_fromDirectory_of_leading name mask h (leadingInteger?_decimal n)

end Converter

end DirectoryLens
