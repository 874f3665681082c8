/-
Doubles that are written as numbers.

* `Number.Rounding.pos_of_contains`: zero rounds to no word but its own;
* `Number.Significant`: digits without a zero at their head, and where their point stands;
* `Number.significant_shortest`: the shortest digits of a word are such;
* `Binary64.IsFinite`, `Number.Layout.isLexeme_write`: a finite double is written as a number.
-/
import Mathlib.Data.List.DropRight
import DirectoryLens.Number.Shortest
import DirectoryLens.Proofs.Json.Lexeme

namespace DirectoryLens

open Json

/-- A double that is neither an infinity nor not a number. -/
def Binary64.IsFinite (x : Binary64) : Prop :=
  x.bits.toNat % Binary64.signSize < Binary64.infinityWord

instance (x : Binary64) : Decidable x.IsFinite :=
  inferInstanceAs (Decidable (_ < _))

/-- A finite double stands for a sign, a significand and a power of two. -/
lemma Binary64.IsFinite.exists_view_eq {x : Binary64} (h : x.IsFinite) :
    ∃ negative m e, x.view = .finite negative m e := by
  rw [IsFinite] at h
  rw [view, if_neg (by omega), if_neg (by omega)]
  exact ⟨_, _, _, rfl⟩

namespace Number

variable {word c : Nat} {tie : Tie} {l : Layout} {ds : List Char} {point : Int}

/-! ### Decimals that round to a word -/

/-- What rounds to a word other than zero is above zero. -/
lemma Rounding.low_pos (hword : word ≠ 0) : 0 < (Rounding.ofWord word).low := by
  have hm : 0 < (Binary64.magnitude word).1 := by
    rw [Binary64.magnitude]
    split_ifs
    · exact Nat.pos_of_ne_zero hword
    · exact Nat.add_pos_left (by decide) _
  rw [Rounding.ofWord]
  refine Nat.mul_pos ?_ (by rw [Nat.one_shiftLeft]; exact Nat.two_pow_pos _)
  split_ifs <;> omega

/-- Zero rounds to no word but its own. -/
lemma Rounding.pos_of_contains {r : Rounding} {scale : Int} (hlow : 0 < r.low)
    (h : r.contains c scale = true) : 0 < c := by
  have hfactor : 0 < r.low * Nat.pow 10 (-scale).toNat :=
    Nat.mul_pos hlow (Nat.pow_pos (by decide))
  rw [Nat.pos_iff_ne_zero]
  rintro rfl
  rw [Rounding.contains] at h
  split_ifs at h
  · have hle := of_decide_eq_true (Bool.and_eq_true_iff.mp h).1
    omega
  · have hlt := of_decide_eq_true (Bool.and_eq_true_iff.mp h).1
    omega

/-- What is picked is above zero. -/
lemma Rounding.pos_of_pick? {r : Rounding} {scale : Int} (hlow : 0 < r.low)
    (h : r.pick? tie scale = some c) : 0 < c := by
  rw [Rounding.pick?.eq_def] at h
  dsimp only at h
  split at h
  · cases h
  · rename_i hhere _
    obtain rfl := Option.some.inj h
    exact pos_of_contains hlow hhere
  · obtain rfl := Option.some.inj h
    exact Nat.succ_pos _
  · rename_i hhere _
    have hpos := pos_of_contains hlow hhere
    split_ifs at h
    · obtain rfl := Option.some.inj h
      exact hpos
    · obtain rfl := Option.some.inj h
      exact Nat.succ_pos _
    · cases tie <;> obtain rfl := Option.some.inj h
      · exact Nat.add_pos_left hpos _
      · exact Nat.succ_pos _

/-- The decimals of a word other than zero are above zero. -/
lemma Rounding.pos_of_mem_candidates {scale : Int} (hword : word ≠ 0)
    (h : (c, scale) ∈ (Rounding.ofWord word).candidates tie) : 0 < c := by
  rw [Rounding.candidates, List.mem_filterMap] at h
  obtain ⟨n, -, h⟩ := h
  obtain ⟨c', hpick, heq⟩ := Option.map_eq_some_iff.mp h
  obtain ⟨rfl, -⟩ := Prod.mk.inj heq
  exact pos_of_pick? (low_pos hword) hpick

/-! ### Digits and their point -/

/-- Digits without a zero at their head; or a zero alone, before its point. -/
def Significant (ds : List Char) (point : Int) : Prop :=
  IsRun ds ∧ (ds.head? = some '0' → ds = ['0'] ∧ point = 1)

/-- A zero alone is a run of digits. -/
lemma isRun_zero : IsRun ['0'] :=
  ⟨List.cons_ne_nil _ _, List.forall_mem_singleton.mpr rfl⟩

/-- The digits of a number are a run. -/
lemma isRun_digits (n : Nat) : IsRun (digits n) :=
  ⟨digits_ne_nil n, fun _ => isDigit_of_mem_digits⟩

/-- The first digits of a run are one. -/
lemma isRun_take {n : Nat} (h : IsRun ds) (hn : 0 < n) : IsRun (ds.take n) := by
  refine ⟨fun hnil => ?_, fun c hc => h.2 c (List.mem_of_mem_take hc)⟩
  rcases List.take_eq_nil_iff.mp hnil with rfl | hds
  · exact hn.ne rfl
  · exact h.1 hds

/-- The digits of a run behind some of its first ones are one. -/
lemma isRun_drop {n : Nat} (h : IsRun ds) (hn : n < ds.length) : IsRun (ds.drop n) :=
  ⟨fun hnil => Nat.not_le.mpr hn (List.drop_eq_nil_iff.mp hnil),
    fun c hc => h.2 c (List.mem_of_mem_drop hc)⟩

/-- Digits that start with no zero are left when the zeros at their end are dropped. -/
lemma isRun_rdropWhile (h : IsRun ds) (hzero : ds.head? ≠ some '0') :
    IsRun (ds.rdropWhile (· == '0')) ∧ (ds.rdropWhile (· == '0')).head? ≠ some '0' := by
  obtain ⟨c, rest, rfl⟩ := List.exists_cons_of_ne_nil h.1
  have hc : c ≠ '0' := fun hc => hzero (congrArg some hc)
  have hkept := List.rdropWhile_prefix (· == '0') (l := c :: rest)
  have hne : (c :: rest).rdropWhile (· == '0') ≠ [] := fun hnil => by
    have hall := List.rdropWhile_eq_nil_iff.mp hnil c List.mem_cons_self
    exact hc (by simpa using hall)
  refine ⟨⟨hne, fun d hd => h.2 d (hkept.subset hd)⟩, ?_⟩
  obtain ⟨zeros, heq⟩ := hkept
  rwa [← heq, List.head?_append_of_ne_nil _ hne] at hzero

/-- The shortest digits of a word start with no zero. -/
theorem significant_shortest (hword : word ≠ 0) :
    Significant (shortest tie word).1 (shortest tie word).2 := by
  rw [shortest]
  split
  · rename_i c scale hhead
    have hpos := Rounding.pos_of_mem_candidates hword (List.mem_of_mem_head? hhead)
    obtain ⟨hrun, hhead⟩ := isRun_rdropWhile (isRun_digits c) (head?_digits_ne hpos.ne')
    exact ⟨hrun, fun h => absurd h hhead⟩
  · exact ⟨isRun_zero, fun _ => ⟨rfl, rfl⟩⟩

/-! ### Layouts -/

/-- Digits with their point in place are a number. -/
lemma Layout.isMagnitude_positionalChars (hmark : IsFraction l.wholeMark.toList)
    (h : Significant ds point) : IsMagnitude (l.positionalChars ds point) := by
  obtain ⟨hrun, hzero⟩ := h
  rw [positionalChars]
  split_ifs with hlow hhigh
  · have hfraction : IsRun (List.replicate (-point).toNat '0' ++ ds) :=
      ⟨List.append_ne_nil_of_right_ne_nil _ hrun.1,
        List.forall_mem_append.mpr ⟨isDigit_of_mem_replicate, hrun.2⟩⟩
    show IsMagnitude (['0'] ++ '.' :: (List.replicate (-point).toNat '0' ++ ds))
    exact isMagnitude_of_fraction (plain_singleton rfl) (.given hfraction)
  · have hplain : Plain (ds ++ List.replicate (point.toNat - ds.length) '0') := by
      refine ⟨List.append_ne_nil_of_left_ne_nil hrun.1 _,
        List.forall_mem_append.mpr ⟨hrun.2, isDigit_of_mem_replicate⟩, fun h => ?_⟩
      rw [List.head?_append_of_ne_nil _ hrun.1] at h
      obtain ⟨rfl, rfl⟩ := hzero h
      rfl
    exact isMagnitude_of_fraction hplain hmark
  · obtain ⟨hne, hdigit⟩ := isRun_take hrun (show 0 < point.toNat by omega)
    have hplain : Plain (ds.take point.toNat) := by
      refine ⟨hne, hdigit, fun h => ?_⟩
      rw [List.head?_take, if_neg (by omega)] at h
      -- a zero at the head would be all, before its point
      obtain ⟨rfl, rfl⟩ := hzero h
      exact absurd le_rfl hhigh
    exact isMagnitude_of_fraction hplain (.given (isRun_drop hrun (by omega)))

/-- Digits with a power of ten are a number. -/
lemma isMagnitude_scientificChars (h : IsRun ds) : IsMagnitude (scientificChars ds point) := by
  have hwhole : Plain (ds.take 1) := by
    obtain ⟨c, rest, rfl⟩ := List.exists_cons_of_ne_nil h.1
    exact plain_singleton (h.2 c List.mem_cons_self)
  have hfraction : IsFraction (if ds.length ≤ 1 then [] else '.' :: ds.drop 1) := by
    split_ifs with hlength
    · exact .absent
    · exact .given (isRun_drop h (Nat.not_le.mp hlength))
  have hpower : IsPower
      ('e' :: (if point - 1 < 0 then '-' else '+') :: digits (point - 1).natAbs) := by
    split_ifs
    · exact .given (.inr (.inr rfl)) (isRun_digits _)
    · exact .given (.inr (.inl rfl)) (isRun_digits _)
  exact .ofParts hwhole hfraction hpower

/-- A finite word is written as a number. -/
lemma Layout.isMagnitude_magnitudeChars (hmark : IsFraction l.wholeMark.toList) (word : Nat) :
    IsMagnitude (l.magnitudeChars word) := by
  rw [magnitudeChars.eq_def]
  split_ifs with hword
  · exact isMagnitude_of_fraction (plain_singleton (c := '0') rfl) hmark
  · have hshortest : Significant (shortest l.tie word).1 (shortest l.tie word).2 :=
      significant_shortest hword
    dsimp only
    split
    · exact isMagnitude_positionalChars hmark hshortest
    · split_ifs
      · exact isMagnitude_positionalChars hmark hshortest
      · exact isMagnitude_scientificChars hshortest.1

/-- **A finite double is written as a number.** -/
theorem Layout.isLexeme_write (hmark : IsFraction l.wholeMark.toList) {x : Binary64}
    (hx : x.IsFinite) : IsLexeme (l.write x).toList := by
  obtain ⟨negative, m, e, hview⟩ := hx.exists_view_eq
  have hmagnitude := isMagnitude_magnitudeChars hmark (x.bits.toNat % Binary64.signSize)
  rw [write, hview]
  cases negative with
  | false => simpa using IsLexeme.natural hmagnitude
  | true => simpa using IsLexeme.negative hmagnitude

end Number

end DirectoryLens
