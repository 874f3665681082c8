/-
Words of flags, read in more than one way.

* `AccountControl.ofValue?_string`, `GroupType.ofValue?_string`: the texts that a word is read from;
* `AccountControl.ofValue?_integer`, `GroupType.ofValue?_integer`: the integers that a word is read
  from, and that it is their low half;
* `GroupType.and_eq_iff_hasAny`: one bit is set when all of it is;
* `Registry.exists_withGroupFlags`, `Registry.fromDirectory_of_get`: the converters for groups are
  found in a registry, and read the bits of their masks;
* `bitfield_readings_agree`: whatever a word is read from, the converters read the same bits.

A word may be read from a text at once, or from the integer that the text is converted to first. The
two meet in the low half of that integer: a group's word is written with a sign or without, and the
halves of both spellings are one.
-/
import DirectoryLens.ActiveDirectory.AccountControl
import DirectoryLens.Proofs.ActiveDirectory.Converters
import DirectoryLens.Proofs.Converter.Flag

namespace DirectoryLens

open Converter Number Text

/-! ### Words of accounts -/

namespace AccountControl

variable {t : String} {n : Int64} {a : AccountControl}

/-- The word of an account is read from the numeral of a number of 32 bits, blanks around it
allowed. -/
lemma ofValue?_string : ofValue? (.string t) = some a
    ↔ ∃ m, Numeral (trim t.toList) m ∧ m < 0x1_0000_0000 ∧ ⟨UInt32.ofNat m⟩ = a := by
  simp only [ofValue?, Option.map_eq_some_iff, readNatBelow?_eq_some_iff, and_assoc]

/-- The word of an account is read from an integer of 32 bits without sign, whose low half it is. -/
lemma ofValue?_integer : ofValue? (.integer n) = some a
    ↔ (0 ≤ n.toInt ∧ n.toInt < 0x1_0000_0000) ∧ ⟨lowBits n⟩ = a := by
  rw [ofValue?]
  split_ifs with h
  · rw [lowBits, Int.emod_eq_of_lt h.1 h.2, Option.some_inj]
    exact (and_iff_right h).symm
  · exact iff_of_false id fun ha => h ha.1

end AccountControl

/-! ### Words of groups -/

namespace GroupType

variable {t : String} {n : Int64} {g : GroupType} {k : Int}

/-- The word of a group is read from the signed numeral of an integer of 32 bits, with or without
sign, blanks around it allowed. -/
lemma ofValue?_string : ofValue? (.string t) = some g
    ↔ ∃ k, Signed (trim t.toList) k ∧ ofInt? k = some g := by
  simp only [ofValue?, Option.bind_eq_some_iff, readInt?_eq_some_iff]

/-- The word of a group is read from an integer of 32 bits, with or without sign, whose low half it
is. -/
lemma ofValue?_integer : ofValue? (.integer n) = some g
    ↔ (-0x8000_0000 ≤ n.toInt ∧ n.toInt < 0x1_0000_0000) ∧ ⟨lowBits n⟩ = g := by
  rw [ofValue?, ofInt?]
  split_ifs with h
  · rw [Option.some_inj, ← lowBits]
    exact (and_iff_right h).symm
  · exact iff_of_false id fun hg => h hg.1

/-- An integer that is the word of a group fits into 64 bits. -/
lemma fits_of_ofInt? (h : ofInt? k = some g) : Fits k := by
  rw [ofInt?] at h
  split_ifs at h with hrange
  rw [Fits]
  omega

/-- The bits of a mask of one bit are all set when some bit of it is. -/
lemma and_eq_iff_hasAny (g : GroupType) {mask : UInt32} {i : Nat}
    (hmask : mask.toBitVec = BitVec.twoPow 32 i) (hne : mask ≠ 0) :
    (g.bits &&& mask == mask) = g.hasAny mask := by
  have hand : g.bits &&& mask = mask ∨ g.bits &&& mask = 0 := by
    rw [← UInt32.toBitVec_inj, ← UInt32.toBitVec_inj, UInt32.toBitVec_and, hmask,
      BitVec.and_twoPow]
    split
    · exact .inl rfl
    · exact .inr rfl
  rw [hasAny, Bool.eq_iff_iff, beq_iff_eq, bne_iff_ne]
  rcases hand with h | h
  · rw [h]
    exact iff_of_true rfl hne
  · rw [h]
    exact iff_of_false hne.symm (not_not_intro rfl)

/-- The signed integer of a word is read as the word. -/
lemma ofInt?_toInt (g : GroupType) : ofInt? g.toInt = some g := by
  have hlt := g.bits.toNat_lt
  have hword : (g.toInt % 0x1_0000_0000).toNat = g.bits.toNat := by
    rw [toInt]
    split_ifs <;> omega
  rw [ofInt?, hword, if_pos, UInt32.ofNat_toNat]
  rw [toInt]
  split_ifs <;> omega

/-- A word composed for a scope says whether the group grants access, if the scope does not. -/
lemma isSecurity_compose (security : Bool) {scope : UInt32} (h : scope &&& securityFlag = 0) :
    (compose security scope).isSecurity = security := by
  cases security with
  | false => rw [isSecurity, hasAny, compose, if_neg Bool.false_ne_true, h]; rfl
  | true =>
      have hand : (scope ||| securityFlag) &&& securityFlag = securityFlag := by
        rw [← UInt32.toBitVec_inj, UInt32.toBitVec_and, UInt32.toBitVec_or]
        refine BitVec.eq_of_getLsbD_eq fun i _ => ?_
        rw [BitVec.getLsbD_and, BitVec.getLsbD_or]
        cases securityFlag.toBitVec.getLsbD i with
        | false => exact Bool.and_false _
        | true => rw [Bool.or_true, Bool.and_true]
      rw [isSecurity, hasAny, compose, if_pos rfl, hand]
      rfl

end GroupType

/-! ### Converters for groups -/

namespace Registry

/-- The converters for groups are found in the table that is built in with them. -/
lemma exists_withGroupFlags :
    ∃ r, withGroupFlags = .ok r ∧ ∀ p ∈ groupFlags, r.get p.1 = .ok (.flag p.1 p.2) :=
  ⟨_, withGroupFlags_eq, fun p hp =>
    (get_withGroupFlags_iff withGroupFlags_eq).mpr (.inr ⟨p, hp, rfl, rfl⟩)⟩

/-- A converter for groups reads whether the bits of its mask are set. -/
lemma fromDirectory_of_get {r : Registry} {p : String × UInt32} {raw : RawValue} {t : String}
    {n : Int64} (hget : r.get p.1 = .ok (.flag p.1 p.2)) (ht : raw.text? = some t)
    (hn : leadingInteger? t = some n) :
    r.fromDirectory p.1 raw = .ok (.boolean (lowBits n &&& p.2 == p.2)) := by
  rw [fromDirectory, hget]
  exact flag_fromDirectory_of_leading p.1 p.2 ht hn

end Registry

/-! ### All readings -/

/-- The readings of an account's word agree. -/
lemma AccountControl.readings_agree {t : String} {u : AccountControl}
    (h : ofValue? (.string t) = some u) :
    (∃ n, integer.fromDirectory (.text t) = .ok (.integer n) ∧ ofValue? (.integer n) = some u)
      ∧ ∀ name mask,
        (flag name mask).fromDirectory (.text t) = .ok (.boolean (u.has mask)) := by
  obtain ⟨m, hm, hlt, rfl⟩ := ofValue?_string.mp h
  obtain ⟨n, hn, htoInt⟩ := exists_leadingInteger?_eq hm.signed (by rw [Fits]; omega)
  have hlow : lowBits n = UInt32.ofNat m := by
    rw [lowBits, htoInt, Int.emod_eq_of_lt (by omega) (by omega), Int.toNat_natCast]
  refine ⟨⟨n, integer_fromDirectory rfl hn, ?_⟩, fun name mask => ?_⟩
  · exact ofValue?_integer.mpr ⟨by omega, by rw [hlow]⟩
  · rw [flag_fromDirectory_of_leading name mask rfl hn, hlow]
    rfl

/-- The readings of a group's word agree. -/
lemma GroupType.readings_agree {t : String} {g : GroupType} (h : ofValue? (.string t) = some g) :
    (∃ n, integer.fromDirectory (.text t) = .ok (.integer n) ∧ ofValue? (.integer n) = some g)
      ∧ ∃ r, Registry.withGroupFlags = .ok r
        ∧ ∀ p ∈ Registry.groupFlags,
          r.fromDirectory p.1 (.text t) = .ok (.boolean (g.hasAny p.2)) := by
  obtain ⟨k, hk, hg⟩ := ofValue?_string.mp h
  obtain ⟨n, hn, rfl⟩ := exists_leadingInteger?_eq hk (fits_of_ofInt? hg)
  have hword : ofValue? (.integer n) = some g := hg
  obtain ⟨-, rfl⟩ := ofValue?_integer.mp hword
  obtain ⟨r, hr, hget⟩ := Registry.exists_withGroupFlags
  refine ⟨⟨n, integer_fromDirectory rfl hn, hword⟩, r, hr, fun p hp => ?_⟩
  obtain ⟨i, hbit, hne⟩ : ∃ i, p.2.toBitVec = BitVec.twoPow 32 i ∧ p.2 ≠ 0 := by
    simp only [Registry.groupFlags, List.mem_cons, List.not_mem_nil, or_false] at hp
    rcases hp with rfl | rfl | rfl | rfl
    · exact ⟨31, rfl, by decide⟩
    · exact ⟨1, rfl, by decide⟩
    · exact ⟨2, rfl, by decide⟩
    · exact ⟨3, rfl, by decide⟩
  rw [Registry.fromDirectory_of_get (hget p hp) rfl hn, ← and_eq_iff_hasAny _ hbit hne]

/-- **All readings of a word of flags agree.** What is read from a text at once is read from the
integer that the text is converted to, and the converters for flags read its bits, with any mask for
accounts and in the table with the converters for groups for these. Words are read from numerals of
32 bits, with zeros before them, blanks around them and a sign, which for groups may be a minus. A
group's word that is composed of a scope says what it was composed of, and its signed integer is
read as the word. -/
theorem bitfield_readings_agree :
    (∀ (t : String) (u : AccountControl), AccountControl.ofValue? (.string t) = some u →
      (∃ n, integer.fromDirectory (.text t) = .ok (.integer n)
        ∧ AccountControl.ofValue? (.integer n) = some u)
      ∧ ∀ name mask, (flag name mask).fromDirectory (.text t) = .ok (.boolean (u.has mask)))
    ∧ (∀ (t : String) (g : GroupType), GroupType.ofValue? (.string t) = some g →
      (∃ n, integer.fromDirectory (.text t) = .ok (.integer n)
        ∧ GroupType.ofValue? (.integer n) = some g)
      ∧ ∃ r, Registry.withGroupFlags = .ok r
        ∧ r.fromDirectory "group_security" (.text t) = .ok (.boolean g.isSecurity)
        ∧ r.fromDirectory "group_global" (.text t)
          = .ok (.boolean (g.hasAny GroupType.globalFlag))
        ∧ r.fromDirectory "group_domain_local" (.text t)
          = .ok (.boolean (g.hasAny GroupType.domainLocalFlag))
        ∧ r.fromDirectory "group_universal" (.text t)
          = .ok (.boolean (g.hasAny GroupType.universalFlag)))
    ∧ (∀ before s behind : List Char, (∀ c ∈ before, isBlank c = true) →
      (∀ c ∈ behind, isBlank c = true) →
        (∀ m, Numeral s m → m < 0x1_0000_0000 →
          AccountControl.ofValue? (.string (String.ofList (before ++ s ++ behind)))
            = some ⟨UInt32.ofNat m⟩)
        ∧ ∀ k, Signed s k → -0x8000_0000 ≤ k → k < 0x1_0000_0000 →
          GroupType.ofValue? (.string (String.ofList (before ++ s ++ behind)))
            = some ⟨UInt32.ofInt k⟩)
    ∧ ∀ (security : Bool) (scope : UInt32), scope &&& GroupType.securityFlag = 0 →
      (GroupType.compose security scope).isSecurity = security
      ∧ GroupType.ofValue? (.integer (Int64.ofInt (GroupType.compose security scope).toInt))
        = some (GroupType.compose security scope) := by
  refine ⟨fun t u hu => AccountControl.readings_agree hu, fun t g hg => ?_, ?_, ?_⟩
  · obtain ⟨hinteger, r, hr, hflags⟩ := GroupType.readings_agree hg
    simp only [Registry.groupFlags, List.forall_mem_cons] at hflags
    obtain ⟨hsecurity, hglobal, hdomainLocal, huniversal, -⟩ := hflags
    exact ⟨hinteger, r, hr, hsecurity, hglobal, hdomainLocal, huniversal⟩
  · intro before s behind hbefore hbehind
    have htrim : ∀ {k : Int}, Signed s k →
        trim (String.ofList (before ++ s ++ behind)).toList = s := fun {k} hs => by
      rw [String.toList_ofList, trim_append_append hbefore hbehind, hs.trim_eq_self]
    refine ⟨fun m hm hlt => ?_, fun k hk hlow hhigh => ?_⟩
    · refine AccountControl.ofValue?_string.mpr ⟨m, ?_, hlt, rfl⟩
      rwa [htrim hm.signed]
    · refine GroupType.ofValue?_string.mpr ⟨k, ?_, if_pos ⟨hlow, hhigh⟩⟩
      rwa [htrim hk]
  · intro security scope hscope
    refine ⟨GroupType.isSecurity_compose security hscope, ?_⟩
    have hword := GroupType.ofInt?_toInt (GroupType.compose security scope)
    have hfits := GroupType.fits_of_ofInt? hword
    rwa [GroupType.ofValue?, Int64.toInt_ofInt_of_le hfits.1 hfits.2]

/-- The word of a security group of global scope, written signed and unsigned, with blanks around
it and zeros before it, is one word; and an account's word is read with a plus sign. -/
theorem bitfield_readings_agree_securityGlobal :
    GroupType.ofValue? (.string " -002147483646\n") = some ⟨0x8000_0002⟩
      ∧ GroupType.ofValue? (.string "+2147483650") = some ⟨0x8000_0002⟩
      ∧ AccountControl.ofValue? (.string " +00514 ") = some ⟨514⟩
      ∧ (∃ r, Registry.withGroupFlags = .ok r
        ∧ r.fromDirectory "group_security" (.text " -002147483646\n") = .ok (.boolean true)
        ∧ r.fromDirectory "group_global" (.text " -002147483646\n") = .ok (.boolean true)
        ∧ r.fromDirectory "group_domain_local" (.text " -002147483646\n") = .ok (.boolean false)
        ∧ r.fromDirectory "group_universal" (.text " -002147483646\n") = .ok (.boolean false))
      ∧ (flag "uac_disabled" 2).fromDirectory (.text " +00514 ") = .ok (.boolean true)
      ∧ (GroupType.compose true GroupType.globalFlag).isSecurity = true := by
  obtain ⟨haccounts, hgroups, hspelled, hcompose⟩ := bitfield_readings_agree
  have hblank : ∀ c ∈ [' '], isBlank c = true := List.all_eq_true.mp (by decide)
  have hbreak : ∀ c ∈ ['\n'], isBlank c = true := List.all_eq_true.mp (by decide)
  have hsigned : GroupType.ofValue? (.string " -002147483646\n") = some ⟨0x8000_0002⟩ :=
    (hspelled [' '] "-002147483646".toList ['\n'] hblank hbreak).2 (-2147483646)
      (.minus ⟨by decide, List.all_eq_true.mp (by decide), by decide⟩) (by decide) (by decide)
  have hunsigned : GroupType.ofValue? (.string "+2147483650") = some ⟨0x8000_0002⟩ :=
    (hspelled [] "+2147483650".toList [] nofun nofun).2 2147483650
      (.plus ⟨by decide, List.all_eq_true.mp (by decide), by decide⟩) (by decide) (by decide)
  have haccount : AccountControl.ofValue? (.string " +00514 ") = some ⟨514⟩ :=
    (hspelled [' '] "+00514".toList [' '] hblank hblank).1 514
      ⟨"00514".toList, .inr rfl, by decide, List.all_eq_true.mp (by decide), by decide⟩ (by decide)
  exact ⟨hsigned, hunsigned, haccount, (hgroups _ _ hsigned).2, (haccounts _ _ haccount).2 _ 2,
    (hcompose true GroupType.globalFlag rfl).1⟩

end DirectoryLens
