/-
Converters and the asterisks of patterns.

* `Converter.Starless`: a text with asterisks is refused, and no asterisk comes of another one;
* `Converter.boolean_starless`, …, `flag_starless`: so it is with all converters but those for
  identifiers;
* `guid_toDirectory_starless`, `sid_toDirectory_starless`: texts of identifiers have no asterisks
  either, whatever octets they are stored as;
* `Registry.Standard`, `Standard.get_cases`: the tables of converters that are always there, and
  what is found in them;
* `Standard.not_mem_asterisk`: with these, asterisks come only of octets of identifiers.
-/
import DirectoryLens.Proofs.ActiveDirectory.Converters
import DirectoryLens.Proofs.Converter.Guid
import DirectoryLens.Proofs.Converter.Moment
import DirectoryLens.Proofs.Identifier.Sid
import DirectoryLens.Proofs.Number.Int64

namespace DirectoryLens

open Number Text

/-- A text is stored as an asterisk for each of its own. -/
lemma RawValue.count_octets_text (s : String) :
    (RawValue.text s).octets.count 0x2A = s.toList.count '*' :=
  Octets.count_ofText (c := '*') (by decide) s

namespace Converter

variable {s : String} {raw : RawValue}

/-- A text with asterisks is refused, and no asterisk comes of another one. -/
def Starless (c : Converter) : Prop :=
  ∀ s raw, c.toDirectory (.string s) = .ok raw → '*' ∉ s.toList ∧ 0x2A ∉ raw.octets

/-- A text without asterisks is stored without them. -/
lemma not_mem_octets_text (h : '*' ∉ s.toList) : 0x2A ∉ (RawValue.text s).octets := by
  rw [← List.count_eq_zero, RawValue.count_octets_text]
  exact List.count_eq_zero.mpr h

/-- An asterisk is left by trimming. -/
lemma not_mem_of_not_mem_trim (h : '*' ∉ trim s.toList) : '*' ∉ s.toList :=
  fun hmem => h (mem_trim (by decide) hmem)

/-- A decimal text has no asterisks. -/
lemma not_mem_decimal (k : Int) : '*' ∉ (decimal k).toList :=
  fun hmem => absurd (mem_decimal hmem) (by decide)

/-! ### Scalars -/

/-- Truth values are named and stored without asterisks. -/
lemma boolean_starless : boolean.Starless := by
  intro s raw h
  obtain ⟨b, hb, rfl⟩ := map_eq_ok.mp h
  have hread := expectForm_eq_ok_iff.mp hb
  refine ⟨not_mem_of_not_mem_trim fun hmem => ?_, not_mem_octets_text (by cases b <;> decide)⟩
  have hlower : '*' ∈ (trim s.toList).map Char.toLower := List.mem_map.mpr ⟨'*', hmem, rfl⟩
  simp only [readBoolean?] at hread
  split_ifs at hread with htrue hfalse
  · rw [htrue] at hlower
    exact absurd hlower (by decide)
  · rw [hfalse] at hlower
    exact absurd hlower (by decide)

/-- Integers are written and stored without asterisks. -/
lemma integer_starless : integer.Starless := by
  intro s raw h
  obtain ⟨n, hn, heq⟩ := bind_eq_ok.mp h
  obtain rfl := Except.ok.inj heq
  have hread := expectForm_eq_ok_iff.mp hn
  exact ⟨not_mem_of_not_mem_trim fun hmem => absurd (mem_of_readInt64? hread hmem) (by decide),
    not_mem_octets_text (not_mem_decimal n.toInt)⟩

/-- No text is stored by the converter for a flag. -/
lemma flag_starless (name : String) (mask : UInt32) : (flag name mask).Starless := nofun

/-! ### Points in time -/

/-- Generalized time is written and stored without asterisks. -/
lemma generalizedTimeMarked_starless (name : String) {mark : String} (hmark : '*' ∉ mark.toList) :
    (generalizedTimeMarked name mark).Starless := by
  intro s raw h
  obtain ⟨t, ht, heq⟩ := bind_eq_ok.mp h
  obtain rfl := Except.ok.inj heq
  obtain ⟨g, hwrites, -⟩ :=
    GeneralizedTime.ofGeneralizedTime_eq_ok_iff.mp (readInstant_eq_ok_iff.mp ht)
  refine ⟨not_mem_of_not_mem_trim fun hmem => absurd (hwrites.mem hmem) (by decide),
    not_mem_octets_text fun hmem => ?_⟩
  rw [Instant.generalizedTime, String.toList_ofList, List.mem_append] at hmem
  rcases hmem with hmem | hmem
  · exact absurd (Instant.mem_compact hmem) (by decide)
  · exact hmark hmem

/-- No text is stored by the converter for file times. -/
lemma fileTime_starless : fileTime.Starless := nofun

/-! ### Identifiers -/

/-- Texts of globally unique identifiers have no asterisks. -/
lemma guid_toDirectory_starless (h : guid.toDirectory (.string s) = .ok raw) : '*' ∉ s.toList := by
  obtain ⟨g, hg, -⟩ := guid_toDirectory_string_iff.mp h
  exact not_mem_of_not_mem_trim fun hmem => absurd (Guid.mem_of_ofChars? hg hmem) (by decide)

/-- Texts of security identifiers have no asterisks. -/
lemma sid_toDirectory_starless (h : sid.toDirectory (.string s) = .ok raw) : '*' ∉ s.toList := by
  obtain ⟨i, hi, -⟩ := map_eq_ok.mp h
  have hread := Sid.ofText?_eq_some_iff.mp (expectForm_eq_ok_iff.mp hi)
  exact not_mem_of_not_mem_trim fun hmem => absurd (hread.mem hmem) (by decide)

end Converter

/-! ### Tables -/

namespace Registry

open Converter

/-- The tables of the converters that are always there, with those for groups or without them. -/
inductive Standard : Registry → Prop
  | plain : Standard builtin
  | grouped {r : Registry} : withGroupFlags = .ok r → Standard r

variable {r r' : Registry} {q s : String} {c : Converter} {raw : RawValue}

/-- **What is found in the tables that are always there** is a converter for identifiers, under its
name, or one that texts with asterisks are refused by. -/
theorem Standard.get_cases (h : r.Standard) (hq : r.get q = .ok c) :
    (fold q = "windows_guid" ∧ c = guid) ∨ (fold q = "windows_sid" ∧ c = sid)
      ∨ (fold q ∉ ["windows_guid", "windows_sid"] ∧ c.Starless) := by
  have hflag : ∀ f ∈ accountFlags ++ groupFlags, fold f.1 ∉ ["windows_guid", "windows_sid"] := by
    decide
  have hplain : builtin.get q = .ok c → (fold q = "windows_guid" ∧ c = guid)
      ∨ (fold q = "windows_sid" ∧ c = sid)
      ∨ (fold q ∉ ["windows_guid", "windows_sid"] ∧ c.Starless) := by
    intro hq
    obtain ⟨p, hp, hname, rfl⟩ := exists_of_get_builtin hq
    rw [hname]
    rcases List.mem_append.mp hp with hp | hp
    · simp only [List.mem_cons, List.not_mem_nil, or_false] at hp
      rcases hp with rfl | rfl | rfl | rfl | rfl | rfl | rfl
      · exact .inr (.inr ⟨by decide, boolean_starless⟩)
      · exact .inr (.inr ⟨by decide, integer_starless⟩)
      · exact .inr (.inr ⟨by decide, generalizedTimeMarked_starless _ (by decide)⟩)
      · exact .inr (.inr ⟨by decide, fileTime_starless⟩)
      · exact .inr (.inr ⟨by decide, generalizedTimeMarked_starless _ (by decide)⟩)
      · exact .inl ⟨by decide, rfl⟩
      · exact .inr (.inl ⟨by decide, rfl⟩)
    · obtain ⟨f, hf, rfl⟩ := List.mem_map.mp hp
      exact .inr (.inr ⟨hflag f (List.mem_append_left _ hf), flag_starless f.1 f.2⟩)
  cases h with
  | plain => exact hplain hq
  | grouped h =>
      rcases (get_withGroupFlags_iff h).mp hq with hq | ⟨f, hf, hname, rfl⟩
      · exact hplain hq
      · rw [← hname]
        exact .inr (.inr ⟨hflag f (List.mem_append_right _ hf), flag_starless f.1 f.2⟩)

/-- **Asterisks come only of octets of identifiers** in the tables that are always there: a text
with asterisks is refused, and one that is stored with them was read as an identifier. -/
theorem Standard.not_mem_asterisk (h : r.Standard) (hraw : r.toDirectory q (.string s) = .ok raw) :
    '*' ∉ s.toList ∧ (0x2A ∈ raw.octets → fold q ∈ ["windows_guid", "windows_sid"]) := by
  obtain ⟨c, hget, hstored⟩ := bind_eq_ok.mp hraw
  rcases h.get_cases hget with ⟨hname, rfl⟩ | ⟨hname, rfl⟩ | ⟨-, hstarless⟩
  · exact ⟨guid_toDirectory_starless hstored, fun _ => by simp [hname]⟩
  · exact ⟨sid_toDirectory_starless hstored, fun _ => by simp [hname]⟩
  · obtain ⟨htext, hoctets⟩ := hstarless s raw hstored
    exact ⟨htext, fun hmem => absurd hmem hoctets⟩

end Registry

end DirectoryLens
