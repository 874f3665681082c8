/-
Globally unique identifiers as they are converted.

* `guid_fromDirectory_binary_iff`, `guid_fromDirectory_text_iff`, `guid_toDirectory_string_iff`:
  octets and texts are converted as the identifier that they are the form of;
* `guid_bijection`: sixteen octets and canonical texts are converted into each other, and every text
  that denotes an identifier as its canonical one.
-/
import DirectoryLens.Converter.Identity
import DirectoryLens.Proofs.Identifier.Guid
import DirectoryLens.Proofs.Traversal

namespace DirectoryLens.Converter

open Text

variable {v : Value} {raw : RawValue} {bs : Octets} {s : String}

/-! ### Forms of an identifier -/

/-- Octets are read as the text of the identifier that they are the stored form of. -/
lemma guid_fromDirectory_binary_iff : guid.fromDirectory (.binary bs) = .ok v ↔
    ∃ g : Guid, g.mixed = bs ∧ .string g.text = v := by
  simp only [← Guid.ofMixed?_eq_some_iff]
  cases hread : Guid.ofMixed? bs with
  | some g => simp [guid, hread]
  | none => simp [guid, hread]

/-- Octets of any other number are refused, for reading as for writing. -/
lemma guid_binary_of_length_ne (h : bs.length ≠ 16) :
    guid.fromDirectory (.binary bs)
        = .error (.conversionFailed "windows_guid" (.guidLength bs.length))
      ∧ guid.toDirectory (.binary bs)
        = .error (.conversionFailed "windows_guid" (.kindRefused .binary)) := by
  have hnone : Guid.ofMixed? bs = none := by
    rw [Guid.ofMixed?, Guid.ofOctets?, dif_neg (by rwa [Guid.length_swap])]
  have hwrite : guid.toDirectory (.binary bs)
      = if bs.length = 16 then .ok (.binary bs) else refuseKind "windows_guid" (.binary bs) := rfl
  refine ⟨?_, by rw [hwrite, if_neg h]; rfl⟩
  simp only [guid, hnone]

/-- A text is read as the canonical text of the identifier that it denotes. -/
lemma guid_fromDirectory_text_iff : guid.fromDirectory (.text s) = .ok v ↔
    ∃ g : Guid, Guid.ofText? s = some g ∧ .string g.text = v := by
  show (fun g : Guid => Value.string g.text)
    <$> expectForm "windows_guid" s .guid (Guid.ofText? s) = .ok v ↔ _
  simp

/-- A text is written as the octets of the identifier that it denotes. -/
lemma guid_toDirectory_string_iff : guid.toDirectory (.string s) = .ok raw ↔
    ∃ g : Guid, Guid.ofText? s = some g ∧ .binary g.mixed = raw := by
  show (fun g : Guid => RawValue.binary g.mixed)
    <$> expectForm "windows_guid" s .guid (Guid.ofText? s) = .ok raw ↔ _
  simp

/-- The text of an identifier is written as its stored form. -/
@[simp] lemma guid_toDirectory_text (g : Guid) :
    guid.toDirectory (.string g.text) = .ok (.binary g.mixed) :=
  guid_toDirectory_string_iff.mpr ⟨g, g.ofText?_text, rfl⟩

/-- The stored form of an identifier is read as its text. -/
@[simp] lemma guid_fromDirectory_mixed (g : Guid) :
    guid.fromDirectory (.binary g.mixed) = .ok (.string g.text) :=
  guid_fromDirectory_binary_iff.mpr ⟨g, rfl, rfl⟩

/-! ### The bijection -/

/-- **Sixteen octets and canonical texts are converted into each other.** Octets are read as a
canonical text of thirty-six characters, which holds their digits in the order of identifiers and is
written as those octets; octets of any other number are refused in both directions. Every canonical
text is had in this way. A text is written just when its lower case, blanks around it apart, is a
spelling of a canonical text; it is then read as that canonical text, is written as the same octets
as that text, and these are read as it. -/
theorem guid_bijection (bs : Octets) (t : String) :
    (bs.length = 16 → ∃ s : String, guid.fromDirectory (.binary bs) = .ok (.string s)
        ∧ guid.toDirectory (.string s) = .ok (.binary bs)
        ∧ Guid.Canonical s ∧ s.toList.length = 36
        ∧ s.toList.filter (· ≠ '-') = Octets.hexChars (Guid.mixedOrder.filterMap (bs[·]?)))
      ∧ (bs.length ≠ 16 →
        guid.fromDirectory (.binary bs)
            = .error (.conversionFailed "windows_guid" (.guidLength bs.length))
          ∧ guid.toDirectory (.binary bs)
            = .error (.conversionFailed "windows_guid" (.kindRefused .binary)))
      ∧ (Guid.Canonical t → ∃ os : Octets, os.length = 16
        ∧ guid.toDirectory (.string t) = .ok (.binary os)
        ∧ guid.fromDirectory (.binary os) = .ok (.string t))
      ∧ ((∃ raw, guid.toDirectory (.string t) = .ok raw) ↔ ∃ c : String, Guid.Canonical c
        ∧ (trim t.toList).map Char.toLower ∈ Guid.spellings c.toList)
      ∧ ∀ raw, guid.toDirectory (.string t) = .ok raw →
        ∃ (os : Octets) (c : String), raw = .binary os ∧ os.length = 16
          ∧ Guid.Canonical c ∧ (trim t.toList).map Char.toLower ∈ Guid.spellings c.toList
          ∧ guid.fromDirectory (.text t) = .ok (.string c)
          ∧ guid.toDirectory (.string c) = .ok (.binary os)
          ∧ guid.fromDirectory (.binary os) = .ok (.string c) := by
  refine ⟨fun h => ?_, guid_binary_of_length_ne, fun h => ?_, ?_, fun raw h => ?_⟩
  · have hlength : (Guid.swap bs).length = 16 := (Guid.length_swap bs).trans h
    obtain ⟨g, hg⟩ : ∃ g : Guid, g.octets = Guid.swap bs := ⟨⟨Guid.swap bs, hlength⟩, rfl⟩
    have hmixed : g.mixed = bs := by rw [Guid.mixed, hg, Guid.swap_swap h]
    refine ⟨g.text, hmixed ▸ guid_fromDirectory_mixed g, hmixed ▸ guid_toDirectory_text g,
      Guid.canonical_iff.mpr ⟨g, rfl⟩, g.length_text, ?_⟩
    rw [Guid.filter_text, hg, Guid.swap_eq_mixedOrder h]
  · obtain ⟨g, rfl⟩ := Guid.canonical_iff.mp h
    exact ⟨g.mixed, g.length_mixed, guid_toDirectory_text g, guid_fromDirectory_mixed g⟩
  · simp only [guid_toDirectory_string_iff]
    constructor
    · rintro ⟨_, g, hg, -⟩
      exact ⟨g.text, Guid.canonical_iff.mpr ⟨g, rfl⟩, Guid.ofChars?_eq_some_iff.mp hg⟩
    · rintro ⟨c, hc, hspelled⟩
      obtain ⟨g, rfl⟩ := Guid.canonical_iff.mp hc
      exact ⟨_, g, Guid.ofChars?_eq_some_iff.mpr hspelled, rfl⟩
  · obtain ⟨g, hg, rfl⟩ := guid_toDirectory_string_iff.mp h
    exact ⟨g.mixed, g.text, rfl, g.length_mixed, Guid.canonical_iff.mpr ⟨g, rfl⟩,
      Guid.ofChars?_eq_some_iff.mp hg, guid_fromDirectory_text_iff.mpr ⟨g, hg, rfl⟩,
      guid_toDirectory_text g, guid_fromDirectory_mixed g⟩

/-- A text in braces, with capital digits and blanks around it, is read as the canonical text of the
octets that it is written as; seventeen octets are refused. -/
theorem guid_bijection_braced :
    let bs : Octets := [0x33, 0x22, 0x11, 0, 0x55, 0x44, 0x77, 0x66, 0x88, 0x99, 0xAA, 0xBB, 0xCC,
      0xDD, 0xEE, 0xFF]
    let t := " \x7b00112233-4455-6677-8899-AABBCCDDEEFF\x7d "
    guid.toDirectory (.string t) = .ok (.binary bs)
      ∧ guid.fromDirectory (.text t) = .ok (.string "00112233-4455-6677-8899-aabbccddeeff")
      ∧ guid.fromDirectory (.binary bs) = .ok (.string "00112233-4455-6677-8899-aabbccddeeff")
      ∧ Guid.Canonical "00112233-4455-6677-8899-aabbccddeeff"
      ∧ guid.toDirectory (.binary (0 :: bs))
        = .error (.conversionFailed "windows_guid" (.kindRefused .binary)) := by
  intro bs t
  have hwrite : guid.toDirectory (.string t) = .ok (.binary bs) := by decide
  have hread : guid.fromDirectory (.binary bs)
      = .ok (.string "00112233-4455-6677-8899-aabbccddeeff") := by rfl
  obtain ⟨-, -, -, -, hback⟩ := guid_bijection bs t
  obtain ⟨os, c, hos, -, hc, -, htext, -, hcanonical⟩ := hback _ hwrite
  obtain rfl : bs = os := RawValue.binary.inj hos
  obtain rfl : "00112233-4455-6677-8899-aabbccddeeff" = c :=
    Value.string.inj (Except.ok.inj (hread.symm.trans hcanonical))
  exact ⟨hwrite, htext, hread, hc, ((guid_bijection (0 :: bs) t).2.1 (by decide)).2⟩

end DirectoryLens.Converter
