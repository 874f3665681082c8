/-
Numbers in ASCII digits.

* `Figures`: a run of ASCII digits, and the number that it denotes;
* `Numeral`: such a run, with a plus sign before it at most;
* `readDigits?_eq_some_iff`, `readNat?_eq_some_iff`, `readNatBelow?_eq_some_iff`: what is read is
  what is denoted;
* `Figures.lt_pow`, `figures_append_zeros`: how great the number of a run is, and what zeros behind
  a run make of it;
* `figures_digits`, `numeral_digits`: the digits of a number denote it;
* `Plain.eq_digits`, `plain_digits`: of the runs that do they are the plain one, a single zero or
  without zeros at its head;
* `Signed`, `readInt?_eq_some_iff`: digits with either sign before them, and what is read of them;
* `Canonical`, `canonical_iff`: the one text of an integer that has neither a plus sign, nor zeros
  at its head, nor a minus sign before zero, and that integers are written so.
-/
import Mathlib.Tactic
import DirectoryLens.Number.Decimal

namespace DirectoryLens.Number

/-- A run of ASCII digits denotes a number. -/
def Figures (ds : List Char) (n : Nat) : Prop :=
  ds ≠ [] ∧ (∀ c ∈ ds, c.isDigit = true) ∧ Nat.ofDigitChars 10 ds 0 = n

/-- Digits denote a number, one plus sign before them at most. -/
def Numeral (s : List Char) (n : Nat) : Prop :=
  ∃ ds, (s = ds ∨ s = '+' :: ds) ∧ Figures ds n

variable {s ds : List Char} {m n bound : Nat}

/-! ### Reading -/

/-- A run of digits is read as the number that it denotes. -/
lemma readDigits?_eq_some_iff : readDigits? s = some n ↔ Figures s n := by
  rw [readDigits?, Figures, ← and_assoc, ← List.all_eq_true]
  split_ifs with h
  · rw [Option.some_inj]
    exact (and_iff_right h).symm
  · exact iff_of_false not_false (fun hn => h hn.1)

/-- A plus sign is no digit. -/
lemma not_figures_plus : ¬ Figures ('+' :: ds) n := by
  rintro ⟨-, hdigit, -⟩
  have hplus := hdigit '+' List.mem_cons_self
  revert hplus
  decide

/-- A text is read as the number that it denotes. -/
lemma readNat?_eq_some_iff : readNat? s = some n ↔ Numeral s n := by
  rw [readNat?.eq_def]
  split
  · rename_i ds
    rw [readDigits?_eq_some_iff]
    constructor
    · exact fun h => ⟨ds, .inr rfl, h⟩
    · rintro ⟨es, hes | hes, h⟩
      · subst hes
        exact absurd h not_figures_plus
      · rwa [List.cons.inj hes |>.2]
  · rename_i hplus
    rw [readDigits?_eq_some_iff]
    constructor
    · exact fun h => ⟨s, .inl rfl, h⟩
    · rintro ⟨es, rfl | rfl, h⟩
      · exact h
      · exact absurd rfl (hplus es)

/-- A text is read below a bound as the number that it denotes, if that lies below. -/
lemma readNatBelow?_eq_some_iff : readNatBelow? bound s = some n ↔ Numeral s n ∧ n < bound := by
  rw [readNatBelow?, Option.filter_eq_some_iff, readNat?_eq_some_iff, decide_eq_true_eq]

/-- A text denotes one number at most. -/
lemma Numeral.unique (hm : Numeral s m) (hn : Numeral s n) : m = n :=
  Option.some_inj.mp
    ((readNat?_eq_some_iff.mpr hm).symm.trans (readNat?_eq_some_iff.mpr hn))

/-- A numeral consists of digits, apart from its sign. -/
lemma Numeral.mem {c : Char} (h : Numeral s n) (hc : c ∈ s) : c.isDigit = true ∨ c = '+' := by
  obtain ⟨ds, rfl | rfl, -, hdigit, -⟩ := h
  · exact .inl (hdigit c hc)
  · exact (List.mem_cons.mp hc).elim .inr fun hmem => .inl (hdigit c hmem)

/-- A numeral has no hyphen. -/
lemma Numeral.not_mem_hyphen (h : Numeral s n) : '-' ∉ s := fun hc =>
  absurd (h.mem hc) (by decide)

/-! ### Places -/

/-- A run denotes one number at most. -/
lemma Figures.unique (hm : Figures ds m) (hn : Figures ds n) : m = n :=
  hm.2.2.symm.trans hn.2.2

/-- A run denotes less than ten to the power of its length. -/
lemma Figures.lt_pow (h : Figures ds n) : n < 10 ^ ds.length := by
  obtain ⟨-, hdigit, rfl⟩ := h
  induction ds with
  | nil => exact Nat.one_pos
  | cons c ds ih =>
      have hc : 48 ≤ c.toNat ∧ c.toNat ≤ 57 :=
        Char.isDigit_iff_toNat.mp (hdigit c List.mem_cons_self)
      have hds := ih fun d hd => hdigit d (List.mem_cons_of_mem c hd)
      rw [Nat.ofDigitChars_cons, Nat.ofDigitChars_eq_ofDigitChars_zero, List.length_cons]
      have hplace : c.toNat - '0'.toNat ≤ 9 := by
        show c.toNat - 48 ≤ 9
        omega
      calc 10 ^ ds.length * (10 * 0 + (c.toNat - '0'.toNat)) + Nat.ofDigitChars 10 ds 0
          < 10 ^ ds.length * 9 + 10 ^ ds.length := by
            refine Nat.add_lt_add_of_le_of_lt (Nat.mul_le_mul_left _ ?_) hds
            omega
        _ = 10 ^ (ds.length + 1) := by ring

/-- Zeros are digits. -/
lemma isDigit_of_mem_replicate {k : Nat} : ∀ c ∈ List.replicate k '0', c.isDigit = true := by
  intro c hc
  rw [List.eq_of_mem_replicate hc]
  rfl

/-- Zeros behind a run are as many factors of ten. -/
lemma figures_append_zeros (hds : ds ≠ []) (k : Nat) :
    Figures (ds ++ List.replicate k '0') n ↔ ∃ m, Figures ds m ∧ n = m * 10 ^ k := by
  simp only [Figures, Nat.ofDigitChars_append, Nat.ofDigitChars_replicate_zero,
    List.forall_mem_append, and_iff_left (isDigit_of_mem_replicate (k := k))]
  constructor
  · rintro ⟨-, hdigit, rfl⟩
    exact ⟨_, ⟨hds, hdigit, rfl⟩, Nat.mul_comm _ _⟩
  · rintro ⟨m, ⟨-, hdigit, rfl⟩, rfl⟩
    exact ⟨List.append_ne_nil_of_left_ne_nil hds _, hdigit, Nat.mul_comm _ _⟩

/-! ### Writing -/

/-- The digits of a number denote it. -/
lemma figures_digits (n : Nat) : Figures (digits n) n :=
  readDigits?_eq_some_iff.mp (readDigits?_digits n)

/-- The digits of a number are a numeral of it. -/
lemma numeral_digits (n : Nat) : Numeral (digits n) n :=
  ⟨digits n, .inl rfl, figures_digits n⟩

/-! ### Plain numerals -/

/-- A run of ASCII digits is plain when it is a single zero or starts with none. -/
def Plain (ds : List Char) : Prop :=
  ds ≠ [] ∧ (∀ c ∈ ds, c.isDigit = true) ∧ (ds.head? = some '0' → ds = ['0'])

/-- A digit alone is plain. -/
lemma plain_singleton {c : Char} (hc : c.isDigit = true) : Plain [c] :=
  ⟨List.cons_ne_nil c [], List.forall_mem_singleton.mpr hc, fun h => by rw [Option.some.inj h]⟩

/-- A digit is the text of the number that it denotes. -/
lemma digits_of_isDigit {c : Char} (h : c.isDigit = true) : digits (c.toNat - 48) = [c] := by
  have hc : 48 ≤ c.toNat ∧ c.toNat ≤ 57 := Char.isDigit_iff_toNat.mp h
  have hten : ∀ k : Fin 10, digits k = [Char.ofNat (48 + k)] := by decide
  have hdigit := hten ⟨c.toNat - 48, by omega⟩
  rwa [Nat.add_sub_cancel' hc.1, Char.ofNat_toNat] at hdigit

/-- A plain numeral is the text of the number that it denotes. -/
lemma Plain.eq_digits (hplain : Plain ds) (h : Figures ds n) : ds = digits n := by
  obtain ⟨hne, hdigit, hzero⟩ := hplain
  obtain ⟨-, -, rfl⟩ := h
  induction ds using List.reverseRecOn with
  | nil => exact absurd rfl hne
  | append_singleton ds c ih =>
      have hc : c.isDigit = true := hdigit c (by simp)
      have hlast : digits (c.toNat - 48) = [c] := digits_of_isDigit hc
      have hvalue : Nat.ofDigitChars 10 (ds ++ [c]) 0
          = 10 * Nat.ofDigitChars 10 ds 0 + (c.toNat - 48) := by
        rw [Nat.ofDigitChars_append, Nat.ofDigitChars_cons, Nat.ofDigitChars_nil]
        rfl
      rcases eq_or_ne ds [] with rfl | hds
      · rw [hvalue, Nat.ofDigitChars_nil, Nat.mul_zero, Nat.zero_add, hlast, List.nil_append]
      · -- the digits before the last one are plain, and no zero alone
        have hlead : ds.head? ≠ some '0' := fun h0 => by
          have hone := congrArg List.length (hzero ((List.head?_append_of_ne_nil _ hds).trans h0))
          rw [List.length_append, List.length_singleton, List.length_singleton] at hone
          exact hds (List.length_eq_zero_iff.mp (by omega))
        have hbefore := ih hds (fun d hd => hdigit d (List.mem_append_left _ hd))
          fun h0 => absurd h0 hlead
        have hpos : 0 < Nat.ofDigitChars 10 ds 0 := by
          rw [Nat.pos_iff_ne_zero]
          intro h0
          rw [hbefore, h0] at hlead
          exact hlead rfl
        have hsmall : c.toNat - 48 < 10 := by
          have := (Char.isDigit_iff_toNat.mp hc).2
          have hnine : '9'.toNat = 57 := rfl
          omega
        calc ds ++ [c]
            = digits (Nat.ofDigitChars 10 ds 0) ++ digits (c.toNat - 48) := by
              rw [← hbefore, hlast]
          _ = digits (Nat.ofDigitChars 10 (ds ++ [c]) 0) := by
              rw [hvalue]
              exact Nat.toDigits_append_toDigits (by decide) hpos hsmall

/-- A plain numeral has no sign, though numerals may: it is the text of its number too. -/
lemma Plain.eq_digits_of_numeral (hplain : Plain s) (h : Numeral s n) : s = digits n := by
  obtain ⟨ds, rfl | rfl, hds⟩ := h
  · exact hplain.eq_digits hds
  · exact absurd (hplain.2.1 '+' List.mem_cons_self) (by decide)

/-- The text of a number is plain. -/
lemma plain_digits (n : Nat) : Plain (digits n) := by
  refine ⟨digits_ne_nil n, fun c hc => isDigit_of_mem_digits hc, fun hzero => ?_⟩
  obtain ⟨rest, hrest⟩ : ∃ rest, digits n = '0' :: rest := List.head?_eq_some_iff.mp hzero
  rcases eq_or_ne rest [] with rfl | hne
  · exact hrest
  · -- the digits behind a zero would be enough for the number
    have hfigures := figures_digits n
    rw [hrest] at hfigures
    have hbehind : Figures rest n := by
      obtain ⟨-, hdigit, hvalue⟩ := hfigures
      refine ⟨hne, fun c hc => hdigit c (List.mem_cons_of_mem _ hc), ?_⟩
      rw [← hvalue, Nat.ofDigitChars_cons]
      rfl
    have hshort : (digits n).length ≤ rest.length :=
      (Nat.length_toDigits_le_iff (by decide) (List.length_pos_iff.mpr hne)).mpr hbehind.lt_pow
    rw [hrest, List.length_cons] at hshort
    omega

/-- The text of a number other than zero starts with no zero. -/
lemma head?_digits_ne (hn : n ≠ 0) : (digits n).head? ≠ some '0' := fun hzero => by
  have hfigures := figures_digits n
  rw [(plain_digits n).2.2 hzero] at hfigures
  exact hn hfigures.2.2.symm

/-! ### Signed numerals -/

/-- Digits denote an integer, one sign before them at most. -/
inductive Signed : List Char → Int → Prop
  | bare {ds : List Char} {n : Nat} (h : Figures ds n) : Signed ds n
  | plus {ds : List Char} {n : Nat} (h : Figures ds n) : Signed ('+' :: ds) n
  | minus {ds : List Char} {n : Nat} (h : Figures ds n) : Signed ('-' :: ds) (-n)

/-- A run of digits starts with one. -/
lemma Figures.isDigit_head {c : Char} (h : Figures (c :: ds) n) : c.isDigit = true :=
  h.2.1 c List.mem_cons_self

/-- A text is read as the integer that it denotes. -/
lemma readInt?_eq_some_iff {k : Int} : readInt? s = some k ↔ Signed s k := by
  rw [readInt?.eq_def]
  split
  · rename_i ds
    simp only [Option.map_eq_some_iff, Option.bind_eq_bind, Option.bind_eq_some_iff,
      Option.pure_def, Option.some_inj, readDigits?_eq_some_iff]
    constructor
    · rintro ⟨_, ⟨n, h, rfl⟩, rfl⟩
      exact .minus h
    · rintro (h | - | h)
      · exact absurd h.isDigit_head (by decide)
      · exact ⟨_, ⟨_, h, rfl⟩, rfl⟩
  · rename_i ds
    simp only [Option.map_eq_some_iff, readDigits?_eq_some_iff]
    constructor
    · rintro ⟨n, h, rfl⟩
      exact .plus h
    · rintro (h | h | -)
      · exact absurd h.isDigit_head (by decide)
      · exact ⟨_, h, rfl⟩
  · rename_i hminus hplus
    simp only [Option.map_eq_some_iff, readDigits?_eq_some_iff]
    constructor
    · rintro ⟨n, h, rfl⟩
      exact .bare h
    · rintro (h | h | h)
      · exact ⟨_, h, rfl⟩
      · exact absurd rfl (hplus _)
      · exact absurd rfl (hminus _)

/-- A numeral denotes its number as an integer. -/
lemma Numeral.signed (h : Numeral s n) : Signed s n := by
  obtain ⟨ds, rfl | rfl, h⟩ := h
  · exact .bare h
  · exact .plus h

/-- A signed numeral consists of digits, apart from its sign. -/
lemma Signed.mem {k : Int} {c : Char} (h : Signed s k) (hc : c ∈ s) :
    c.isDigit = true ∨ c = '+' ∨ c = '-' := by
  cases h with
  | bare h => exact .inl (h.2.1 c hc)
  | plus h => exact (List.mem_cons.mp hc).symm.imp (h.2.1 c) .inl
  | minus h => exact (List.mem_cons.mp hc).symm.imp (h.2.1 c) .inr

/-! ### Canonical numerals -/

/-- The canonical text of an integer: a plain run of digits, a minus sign before it when the integer
is negative. -/
inductive Canonical : List Char → Int → Prop
  | natural {ds : List Char} {n : Nat} (hplain : Plain ds) (h : Figures ds n) : Canonical ds n
  | negative {ds : List Char} {n : Nat} (hplain : Plain ds) (h : Figures ds (n + 1)) :
      Canonical ('-' :: ds) (-(n + 1 : Nat))

/-- **An integer is written canonically**, and has no other canonical text. -/
theorem canonical_iff {k : Int} : Canonical s k ↔ s = decimalChars k := by
  constructor
  · rintro (⟨hplain, h⟩ | ⟨hplain, h⟩)
    · rw [decimalChars, if_neg (by omega), Int.natAbs_natCast]
      exact hplain.eq_digits h
    · rw [decimalChars, if_pos (by omega), Int.natAbs_neg, Int.natAbs_natCast]
      exact congrArg ('-' :: ·) (hplain.eq_digits h)
  · rintro rfl
    rw [decimalChars]
    split_ifs with hk
    · obtain ⟨n, rfl⟩ : ∃ n : Nat, k = -(n + 1 : Nat) := ⟨k.natAbs - 1, by omega⟩
      rw [Int.natAbs_neg, Int.natAbs_natCast]
      exact .negative (plain_digits _) (figures_digits _)
    · obtain ⟨n, rfl⟩ : ∃ n : Nat, k = n := ⟨k.natAbs, by omega⟩
      rw [Int.natAbs_natCast]
      exact .natural (plain_digits n) (figures_digits n)

/-- The text that is written for an integer is canonical. -/
lemma canonical_decimal (k : Int) : Canonical (decimal k).toList k := by
  rw [decimal, String.toList_ofList]
  exact canonical_iff.mpr rfl

end DirectoryLens.Number
