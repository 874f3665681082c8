/-
Security identifiers and the numbers that they are made of.

* `Sid.Numbers`: a revision, an authority and sub-authorities of any size; `Numbers.Fits`: they are
  small and few enough for an identifier;
* `Sid.Spells`: a text spells numbers, with signs and zeros as it likes;
* `Numbers.Stored`: octets hold numbers;
* `ofText?_eq_some_iff`: a text is read as the identifier whose numbers it spells;
* `spells_text`: the written form spells the numbers of an identifier;
* `ofOctets_eq_ok_iff`: octets are read as the identifier that they are the stored form of;
* `exists_ofOctets_iff`: they are one when their length is that of their count;
* `stored_octets`: the stored form holds the numbers of an identifier;
* `octets_ne_ofText_text`: it is never the octets of the written form.
-/
import Mathlib.Tactic
import DirectoryLens.Identifier.Sid
import DirectoryLens.Proofs.Number.Numeral
import DirectoryLens.Proofs.Octets
import DirectoryLens.Proofs.Text.Ascii
import DirectoryLens.Proofs.Text.Blank
import DirectoryLens.Proofs.Traversal

namespace DirectoryLens.Sid

open Number Text

/-! ### Numbers -/

/-- The numbers that a text or octets may give for an identifier, whatever their size. -/
structure Numbers where
  revision : Nat
  authority : Nat
  subAuthorities : List Nat

/-- The numbers are small enough for an identifier, and the sub-authorities few enough. -/
structure Numbers.Fits (w : Numbers) : Prop where
  revision_lt : w.revision < 0x100
  authority_lt : w.authority < 0x1_0000_0000_0000
  sub_lt : ∀ n ∈ w.subAuthorities, n < 0x1_0000_0000
  length_lt : w.subAuthorities.length < 0x100

/-- The numbers of an identifier. -/
def numbers (i : Sid) : Numbers :=
  ⟨i.revision.toNat, i.authority, i.subAuthorities.map UInt32.toNat⟩

variable {i j : Sid} {w : Numbers} {s : List Char} {bs : Octets}

/-- The numbers of an identifier fit. -/
lemma fits_numbers (i : Sid) : i.numbers.Fits where
  revision_lt := i.revision.toNat_lt
  authority_lt := i.authority_lt
  sub_lt n hn := by
    obtain ⟨m, -, rfl⟩ := List.mem_map.mp hn
    exact m.toNat_lt
  length_lt := by
    rw [numbers, List.length_map]
    exact i.length_lt

/-- An identifier is given by its numbers. -/
lemma numbers_injective (h : i.numbers = j.numbers) : i = j := by
  obtain ⟨r, a, us, _, _⟩ := i
  obtain ⟨r', a', us', _, _⟩ := j
  rw [numbers, numbers, Numbers.mk.injEq] at h
  obtain ⟨hr, ha, hs⟩ := h
  obtain rfl : r = r' := UInt8.toNat_inj.mp hr
  obtain rfl : a = a' := ha
  obtain rfl : us = us' := List.map_injective_iff.mpr (fun _ _ => UInt32.toNat_inj.mp) hs
  rfl

/-- Numbers that fit are those of an identifier. -/
lemma Numbers.Fits.exists_eq (h : w.Fits) : ∃ i : Sid, i.numbers = w := by
  refine ⟨⟨UInt8.ofNat w.revision, w.authority, w.subAuthorities.map UInt32.ofNat, h.authority_lt,
    (List.length_map _).trans_lt h.length_lt⟩, ?_⟩
  have hsubs : (w.subAuthorities.map UInt32.ofNat).map UInt32.toNat = w.subAuthorities := by
    rw [List.map_map]
    refine (List.map_congr_left fun n hn => ?_).trans (List.map_id _)
    exact UInt32.toNat_ofNat_of_lt' (h.sub_lt n hn)
  rw [numbers, hsubs, UInt8.toNat_ofNat_of_lt' h.revision_lt]

/-! ### Written form -/

/-- A text spells numbers: the letter, in either case, and behind a hyphen each a numeral of the
revision, the authority and the sub-authorities. -/
def Spells (s : List Char) (w : Numbers) : Prop :=
  ∃ letter revision authority subs,
    s = letter :: (revision :: authority :: subs).flatMap ('-' :: ·)
      ∧ (letter = 'S' ∨ letter = 's')
      ∧ Numeral revision w.revision ∧ Numeral authority w.authority
      ∧ List.Forall₂ Numeral subs w.subAuthorities

/-- Parts with hyphens between them, each hyphen taken with the part behind it. -/
lemma intercalate_cons_eq (p : List Char) (ps : List (List Char)) :
    ['-'].intercalate (p :: ps) = p ++ ps.flatMap ('-' :: ·) := by
  induction ps generalizing p with
  | nil => simp
  | cons q ps ih =>
      rw [List.intercalate_cons_cons, ih, List.flatMap_cons, List.append_assoc]
      rfl

/-- A text is cut into the parts that it is put together of, when these have no hyphens. -/
lemma parts_eq_iff {p : List Char} {ps : List (List Char)} (hp : ∀ q ∈ p :: ps, '-' ∉ q) :
    parts s = p :: ps ↔ s = p ++ ps.flatMap ('-' :: ·) := by
  rw [parts, ← intercalate_cons_eq]
  constructor
  · intro h
    rw [← h, List.intercalate_splitOn]
  · rintro rfl
    exact List.splitOn_intercalate '-' hp (List.cons_ne_nil p ps)

/-- The letter may be of either case. -/
lemma eqIgnoringAsciiCase_letter_iff {mark : List Char} :
    eqIgnoringAsciiCase mark ['S'] = true ↔ mark = ['S'] ∨ mark = ['s'] := by
  have hlower : ∀ c : Char, c.toLower = 's' ↔ c = 'S' ∨ c = 's' := by
    intro c
    rw [← Char.toNat_inj, toNat_toLower, ← Char.toNat_inj, ← Char.toNat_inj]
    show _ = 115 ↔ c.toNat = 83 ∨ c.toNat = 115
    split <;> omega
  rw [eqIgnoringAsciiCase, beq_iff_eq]
  match mark with
  | [] => simp
  | [c] => simpa using hlower c
  | _ :: _ :: _ => simp

/-- The letter, the revision, the authority and the sub-authorities of a text that spells numbers
are its parts. -/
lemma spells_iff : Spells s w ↔ ∃ mark revision authority subs,
    parts s = mark :: revision :: authority :: subs ∧ eqIgnoringAsciiCase mark ['S'] = true
      ∧ Numeral revision w.revision ∧ Numeral authority w.authority
      ∧ List.Forall₂ Numeral subs w.subAuthorities := by
  have hsubs : ∀ {subs ns}, List.Forall₂ Numeral subs ns → ∀ q ∈ subs, '-' ∉ q := by
    intro subs ns h q hq
    obtain ⟨n, -, hn⟩ := exists_mem_of_forall₂ (R := flip Numeral) h.flip hq
    exact hn.not_mem_hyphen
  have hparts : ∀ {mark revision authority : List Char} {subs},
      mark = ['S'] ∨ mark = ['s'] → Numeral revision w.revision → Numeral authority w.authority →
      List.Forall₂ Numeral subs w.subAuthorities →
      ∀ q ∈ mark :: revision :: authority :: subs, '-' ∉ q := by
    intro mark revision authority subs hmark hr ha hs q hq
    simp only [List.mem_cons] at hq
    rcases hq with rfl | rfl | rfl | hq
    · rcases hmark with rfl | rfl <;> decide
    · exact hr.not_mem_hyphen
    · exact ha.not_mem_hyphen
    · exact hsubs hs q hq
  constructor
  · rintro ⟨letter, revision, authority, subs, rfl, hletter, hr, ha, hs⟩
    have hmark : [letter] = ['S'] ∨ [letter] = ['s'] := by simpa using hletter
    exact ⟨[letter], revision, authority, subs, (parts_eq_iff (hparts hmark hr ha hs)).mpr rfl,
      eqIgnoringAsciiCase_letter_iff.mpr hmark, hr, ha, hs⟩
  · rintro ⟨mark, revision, authority, subs, hsplit, hmark, hr, ha, hs⟩
    rw [eqIgnoringAsciiCase_letter_iff] at hmark
    rw [parts_eq_iff (hparts hmark hr ha hs)] at hsplit
    rcases hmark with rfl | rfl
    · exact ⟨'S', revision, authority, subs, hsplit, .inl rfl, hr, ha, hs⟩
    · exact ⟨'s', revision, authority, subs, hsplit, .inr rfl, hr, ha, hs⟩

/-- A text that spells numbers is made of the letter, hyphens, signs and digits. -/
lemma Spells.mem {c : Char} (h : Spells s w) (hc : c ∈ s) :
    c.isDigit = true ∨ c ∈ ['S', 's', '-', '+'] := by
  obtain ⟨letter, revision, authority, subs, rfl, hletter, hr, ha, hs⟩ := h
  rcases List.mem_cons.mp hc with rfl | hc
  · rcases hletter with rfl | rfl <;> exact .inr (by decide)
  · obtain ⟨part, hpart, hc⟩ := List.mem_flatMap.mp hc
    have hnumeral : ∃ n, Numeral part n := by
      rcases List.mem_cons.mp hpart with rfl | hpart
      · exact ⟨_, hr⟩
      · rcases List.mem_cons.mp hpart with rfl | hpart
        · exact ⟨_, ha⟩
        · obtain ⟨n, -, hn⟩ := exists_mem_of_forall₂ hs.flip hpart
          exact ⟨n, hn⟩
    obtain ⟨n, hn⟩ := hnumeral
    rcases List.mem_cons.mp hc with rfl | hc
    · exact .inr (by decide)
    · rcases hn.mem hc with hdigit | rfl
      · exact .inl hdigit
      · exact .inr (by decide)

/-- A text spells one list of numbers at most. -/
lemma Spells.unique {w' : Numbers} (h : Spells s w) (h' : Spells s w') : w = w' := by
  obtain ⟨_, _, _, _, hparts, -, hr, ha, hs⟩ := spells_iff.mp h
  obtain ⟨_, _, _, _, hparts', -, hr', ha', hs'⟩ := spells_iff.mp h'
  rw [hparts] at hparts'
  simp only [List.cons.injEq] at hparts'
  obtain ⟨rfl, rfl, rfl, rfl⟩ := hparts'
  have hsubs : w.subAuthorities = w'.subAuthorities :=
    List.right_unique_forall₂' (fun _ _ _ hm hn => hm.unique hn) hs hs'
  obtain ⟨r, a, ns⟩ := w
  obtain ⟨r', a', ns'⟩ := w'
  obtain rfl : r = r' := hr.unique hr'
  obtain rfl : a = a' := ha.unique ha'
  obtain rfl : ns = ns' := hsubs
  rfl

/-- **A text is read as the identifier whose numbers it spells.** -/
theorem ofText?_eq_some_iff {t : String} :
    ofText? t = some i ↔ Spells (trim t.toList) i.numbers := by
  rw [spells_iff, ofText?]
  constructor
  · intro h
    split at h
    · rename_i mark revision authority subs hparts
      split_ifs at h with hmark
      simp only [Option.bind_eq_bind, Option.bind_eq_some_iff, readNatBelow?_eq_some_iff,
        mapM_eq_some_iff] at h
      obtain ⟨r, ⟨hr, hrlt⟩, a, ⟨ha, -⟩, us, hus, h⟩ := h
      split_ifs at h with hfits
      obtain rfl := Option.some_inj.mp h
      refine ⟨mark, revision, authority, subs, hparts, hmark, ?_, ha, ?_⟩
      · rwa [numbers, UInt8.toNat_ofNat_of_lt' hrlt]
      · rw [numbers, List.map_map, List.forall₂_map_right_iff]
        refine hus.imp fun q n hn => ?_
        rw [Function.comp_apply, UInt32.toNat_ofNat_of_lt' hn.2]
        exact hn.1
    · cases h
  · rintro ⟨mark, revision, authority, subs, hparts, hmark, hr, ha, hs⟩
    have hsubs : subs.mapM (readNatBelow? 0x1_0000_0000)
        = some (i.subAuthorities.map UInt32.toNat) := by
      rw [mapM_eq_some_iff, List.forall₂_map_right_iff]
      rw [numbers, List.forall₂_map_right_iff] at hs
      exact hs.imp fun q n hn => readNatBelow?_eq_some_iff.mpr ⟨hn, n.toNat_lt⟩
    have hfits : i.numbers.authority < 0x1_0000_0000_0000
        ∧ (i.subAuthorities.map UInt32.toNat).length < 256 :=
      ⟨i.authority_lt, (List.length_map _).trans_lt i.length_lt⟩
    simp only [hparts, hmark, if_true, Option.bind_eq_bind, hsubs,
      readNatBelow?_eq_some_iff.mpr ⟨hr, i.revision.toNat_lt⟩,
      readNatBelow?_eq_some_iff.mpr ⟨ha, i.authority_lt⟩, Option.bind_some]
    rw [dif_pos hfits, Option.some_inj]
    refine numbers_injective ?_
    simp [numbers]

/-- The written form is made of the letter, hyphens and digits. -/
lemma mem_text {c : Char} (h : c ∈ i.text.toList) : c = 'S' ∨ c = '-' ∨ c.isDigit = true := by
  simp only [text, String.toList_ofList, List.mem_cons, List.mem_append, List.mem_flatMap,
    List.cons_append, or_assoc] at h
  rcases h with rfl | rfl | h | rfl | h | ⟨n, -, rfl | h⟩
  · exact .inl rfl
  · exact .inr (.inl rfl)
  · exact .inr (.inr (isDigit_of_mem_digits h))
  · exact .inr (.inl rfl)
  · exact .inr (.inr (isDigit_of_mem_digits h))
  · exact .inr (.inl rfl)
  · exact .inr (.inr (isDigit_of_mem_digits h))

/-- The written form spells the numbers of an identifier. -/
lemma spells_text (i : Sid) : Spells (trim i.text.toList) i.numbers := by
  have hblank : ∀ c ∈ i.text.toList, isBlank c = false := by
    intro c hc
    rcases mem_text hc with rfl | rfl | hc
    · decide
    · decide
    · exact isBlank_of_isDigit hc
  rw [trim_eq_self hblank]
  refine ⟨'S', digits i.revision.toNat, digits i.authority,
    i.subAuthorities.map fun n => digits n.toNat, ?_, .inl rfl, numeral_digits _, numeral_digits _,
    ?_⟩
  · simp [text, List.flatMap_map]
  · rw [numbers, List.forall₂_map_left_iff, List.forall₂_map_right_iff]
    exact List.forall₂_same.mpr fun n _ => numeral_digits _

/-! ### Stored form -/

/-- Octets hold numbers: one octet is the revision, one the count of the sub-authorities, six are
the authority, the greatest part first, and four each of them, the least part first. -/
def Numbers.Stored (w : Numbers) (bs : Octets) : Prop :=
  ∃ revision count authority words, bs = revision :: count :: authority ++ words.flatten
    ∧ revision.toNat = w.revision ∧ count.toNat = words.length
    ∧ authority.length = 6 ∧ Nat.ofDigits 256 (authority.reverse.map UInt8.toNat) = w.authority
    ∧ List.Forall₂
      (fun (word : Octets) n => word.length = 4 ∧ Nat.ofDigits 256 (word.map UInt8.toNat) = n)
      words w.subAuthorities

/-- Octets have the frame of an identifier: a head of eight, the second of which is the count of
the groups of four behind them. -/
def Framed (bs : Octets) : Prop :=
  8 ≤ bs.length ∧ ∃ count ∈ bs[1]?, bs.length = 8 + 4 * count.toNat

/-- The octets of a sub-authority denote it. -/
lemma ofDigits_subOctets (n : UInt32) :
    Nat.ofDigits 256 ((subOctets n).map UInt8.toNat) = n.toNat := by
  have hlt := n.toNat_lt
  simp only [subOctets, List.map_cons, List.map_nil, UInt8.toNat_ofNat', Nat.shiftRight_eq_div_pow,
    Nat.ofDigits_cons, Nat.ofDigits_nil]
  omega

/-- The octets of an authority denote it. -/
lemma bigEndian_authorityOctets {n : Nat} (h : n < 0x1_0000_0000_0000) :
    bigEndian (authorityOctets n) = n := by
  simp only [bigEndian, authorityOctets, List.map_cons, List.map_nil, UInt8.toNat_ofNat',
    Nat.shiftRight_eq_div_pow, List.foldl_cons, List.foldl_nil]
  omega

/-- A number goes into the octet that its last eight bits are. -/
lemma ofNat_eq_of_toNat_eq {n : Nat} {b : UInt8} (h : n % 256 = b.toNat) : UInt8.ofNat n = b := by
  rw [← UInt8.toNat_inj, UInt8.toNat_ofNat']
  exact h

/-- An authority that was read from octets is stored as those. -/
lemma authorityOctets_bigEndian (a b c d e f : UInt8) :
    authorityOctets (bigEndian [a, b, c, d, e, f]) = [a, b, c, d, e, f] := by
  have ha := a.toNat_lt
  have hb := b.toNat_lt
  have hc := c.toNat_lt
  have hd := d.toNat_lt
  have he := e.toNat_lt
  have hf := f.toNat_lt
  simp only [authorityOctets, bigEndian, List.foldl_cons, List.foldl_nil, List.map_cons,
    List.map_nil, Nat.shiftRight_eq_div_pow, List.cons.injEq, and_true]
  refine ⟨?_, ?_, ?_, ?_, ?_, ?_⟩ <;> refine ofNat_eq_of_toNat_eq ?_ <;> omega

/-- A sub-authority that was read from octets is stored as those. -/
lemma subOctets_ofNat (a b c d : UInt8) :
    subOctets (UInt32.ofNat (a.toNat + 256 * b.toNat + 65536 * c.toNat + 16777216 * d.toNat))
      = [a, b, c, d] := by
  have ha := a.toNat_lt
  have hb := b.toNat_lt
  have hc := c.toNat_lt
  have hd := d.toNat_lt
  simp only [subOctets, List.map_cons, List.map_nil, UInt32.toNat_ofNat',
    Nat.shiftRight_eq_div_pow, List.cons.injEq, and_true]
  refine ⟨?_, ?_, ?_, ?_⟩ <;> refine ofNat_eq_of_toNat_eq ?_ <;> omega

/-- Groups of four octets are stored as they were read. -/
lemma flatMap_subOctets {rest : Octets} {k : Nat} (h : rest.length = 4 * k) :
    (subsOfOctets rest).flatMap subOctets = rest := by
  fun_induction subsOfOctets rest generalizing k with
  | case1 a b c d rest ih =>
      rw [List.length_cons, List.length_cons, List.length_cons, List.length_cons] at h
      rw [List.flatMap_cons, subOctets_ofNat, ih (k := k - 1) (by omega)]
      rfl
  | case2 rest hshort =>
      rcases rest with _ | ⟨a, _ | ⟨b, _ | ⟨c, _ | ⟨d, rest⟩⟩⟩⟩
      · rfl
      iterate 3
        · simp only [List.length_cons, List.length_nil] at h
          omega
      · exact absurd rfl (hshort a b c d rest)

/-- Sub-authorities are read as they were stored. -/
lemma subsOfOctets_flatMap (us : List UInt32) : subsOfOctets (us.flatMap subOctets) = us := by
  induction us with
  | nil => rfl
  | cons u us ih =>
      have hu := u.toNat_lt
      rw [List.flatMap_cons]
      show subsOfOctets (_ :: _ :: _ :: _ :: us.flatMap subOctets) = u :: us
      rw [subsOfOctets, ih, List.cons.injEq, and_iff_left rfl, ← UInt32.toNat_inj,
        UInt32.toNat_ofNat']
      simp only [UInt8.toNat_ofNat', Nat.shiftRight_eq_div_pow]
      omega

/-- The octets of the sub-authorities are four for each. -/
lemma length_flatMap_subOctets (us : List UInt32) :
    (us.flatMap subOctets).length = 4 * us.length := by
  induction us with
  | nil => rfl
  | cons u us ih =>
      rw [List.flatMap_cons, List.length_append, ih, List.length_cons]
      show 4 + 4 * us.length = _
      omega

/-- **Octets are read as the identifier that they are the stored form of.** -/
theorem ofOctets_eq_ok_iff : ofOctets bs = .ok i ↔ i.octets = bs := by
  constructor
  · intro h
    rw [ofOctets.eq_def] at h
    split at h
    · rename_i revision count a b c d e f rest
      split_ifs at h with hlength
      obtain rfl := Except.ok.inj h
      have hcount : UInt8.ofNat (subsOfOctets rest).length = count := by
        rw [length_subsOfOctets, hlength, Nat.mul_div_cancel_left _ (by decide), UInt8.ofNat_toNat]
      rw [octets, authorityOctets_bigEndian, flatMap_subOctets hlength, hcount]
      rfl
    · cases h
  · rintro rfl
    have hlt := i.length_lt
    have hlength : (i.subAuthorities.flatMap subOctets).length
        = 4 * (UInt8.ofNat i.subAuthorities.length).toNat := by
      rw [length_flatMap_subOctets, UInt8.toNat_ofNat_of_lt' hlt]
    show ofOctets (_ :: _ :: _ :: _ :: _ :: _ :: _ :: _ :: i.subAuthorities.flatMap subOctets) = _
    rw [ofOctets, dif_pos hlength, Except.ok.injEq]
    refine numbers_injective ?_
    rw [numbers, numbers, Numbers.mk.injEq]
    exact ⟨rfl, bigEndian_authorityOctets i.authority_lt,
      congrArg (List.map UInt32.toNat) (subsOfOctets_flatMap _)⟩

/-- **Octets are read when they have the frame of an identifier.** -/
theorem exists_ofOctets_iff : (∃ i, ofOctets bs = .ok i) ↔ Framed bs := by
  rw [Framed]
  match bs with
  | revision :: count :: a :: b :: c :: d :: e :: f :: rest =>
      rw [ofOctets]
      simp only [List.length_cons, List.getElem?_cons_succ, List.getElem?_cons_zero,
        Option.mem_some_iff, exists_eq_left']
      split_ifs with h
      · exact iff_of_true ⟨_, rfl⟩ ⟨by omega, by omega⟩
      · exact iff_of_false (by rintro ⟨_, hi⟩; cases hi) fun hframe => h (by omega)
  | [] | [_] | [_, _] | [_, _, _] | [_, _, _, _] | [_, _, _, _, _] | [_, _, _, _, _, _]
  | [_, _, _, _, _, _, _] => exact iff_of_false (by rintro ⟨_, hi⟩; cases hi) (by simp)

/-- The stored form holds the numbers of an identifier. -/
lemma stored_octets (i : Sid) : i.numbers.Stored i.octets := by
  refine ⟨i.revision, UInt8.ofNat i.subAuthorities.length, authorityOctets i.authority,
    i.subAuthorities.map subOctets, ?_, rfl, ?_, rfl, ?_, ?_⟩
  · rw [octets, List.flatMap_def]
  · rw [UInt8.toNat_ofNat_of_lt' i.length_lt, List.length_map]
  · show _ = i.authority
    refine Eq.trans ?_ (bigEndian_authorityOctets i.authority_lt)
    simp only [bigEndian, authorityOctets, List.map_cons, List.map_nil, List.reverse_cons,
      List.reverse_nil, List.nil_append, List.cons_append, Nat.ofDigits_cons, Nat.ofDigits_nil,
      List.foldl_cons, List.foldl_nil]
    omega
  · rw [numbers, List.forall₂_map_left_iff, List.forall₂_map_right_iff]
    exact List.forall₂_same.mpr fun n _ => ⟨rfl, ofDigits_subOctets n⟩

/-! ### The two forms of one identifier -/

/-- The octets of a sub-authority that are all as great as a hyphen make a number of nine digits. -/
lemma le_length_digits {u : UInt32} (h : ∀ b ∈ subOctets u, 0x2D ≤ b.toNat) :
    9 ≤ (digits u.toNat).length := by
  have hlarge : 0x2D2D2D2D ≤ u.toNat := by
    have hvalue := ofDigits_subOctets u
    simp only [subOctets, List.map_cons, List.map_nil, List.forall_mem_cons, Nat.ofDigits_cons,
      Nat.ofDigits_nil] at h hvalue
    omega
  by_contra hlength
  have hsmall := (Nat.length_toDigits_le_iff (b := 10) (n := u.toNat) (k := 8) (by decide)
    (by decide)).mp (Nat.le_of_lt_succ (Nat.lt_of_not_le hlength))
  omega

/-- Numbers of nine digits take ten characters each in the written form. -/
lemma le_length_flatMap_digits {us : List UInt32} (h : ∀ u ∈ us, 9 ≤ (digits u.toNat).length) :
    10 * us.length ≤ (us.flatMap fun u => '-' :: digits u.toNat).length := by
  induction us with
  | nil => exact Nat.le_refl 0
  | cons u us ih =>
      have hu := h u List.mem_cons_self
      have hus := ih fun v hv => h v (List.mem_cons_of_mem u hv)
      rw [List.flatMap_cons, List.length_append, List.length_cons, List.length_cons]
      omega

/-- **No identifier has the octets of its own text for its stored form.** These would give it as
many sub-authorities as the code point of the hyphen, and all of them too great for the length. -/
theorem octets_ne_ofText_text (i : Sid) : i.octets ≠ Octets.ofText i.text := by
  intro h
  have hascii : ∀ c ∈ i.text.toList, 0x2D ≤ c.toNat ∧ c.toNat < 128 := by
    intro c hc
    rcases mem_text hc with rfl | rfl | hc
    · decide
    · decide
    · rw [isDigit_iff] at hc
      omega
  rw [Octets.ofText_of_forall_lt fun c hc => (hascii c hc).2] at h
  have hlt := i.length_lt
  have hcount : i.subAuthorities.length = 0x2D := by
    have hsecond : UInt8.ofNat i.subAuthorities.length = 0x2D := by
      rw [octets, text, String.toList_ofList] at h
      exact (List.cons.inj (List.cons.inj h).2).1
    have hnat := congrArg UInt8.toNat hsecond
    rwa [UInt8.toNat_ofNat_of_lt' hlt] at hnat
  have hsubs : ∀ u ∈ i.subAuthorities, 9 ≤ (digits u.toNat).length := by
    intro u hu
    refine le_length_digits fun b hb => ?_
    have hmem : b ∈ i.octets :=
      List.mem_append_right _ (List.mem_flatMap.mpr ⟨u, hu, hb⟩)
    rw [h] at hmem
    obtain ⟨c, hc, rfl⟩ := List.mem_map.mp hmem
    obtain ⟨hle, hlt⟩ := hascii c hc
    rwa [UInt8.toNat_ofNat_of_lt' (hlt.trans (by decide))]
  have hlong := le_length_flatMap_digits hsubs
  have hlength := congrArg List.length h
  rw [octets, text, String.toList_ofList, List.length_map] at hlength
  simp only [List.length_append, List.length_cons, length_flatMap_subOctets, authorityOctets,
    List.length_map, List.length_nil, List.cons_append] at hlength
  omega

end DirectoryLens.Sid
