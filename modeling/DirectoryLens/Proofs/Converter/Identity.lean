/-
Identifiers of objects as they are converted.

* `sid_fromDirectory_binary_iff`, `sid_toDirectory_string_iff`: octets and texts of security
  identifiers are read as the identifier that they are the form of;
* `sid_inverse`: writing a security identifier undoes reading it, over all octets and texts;
* `guid_text_of_octets`, `sid_text_eq_binary_iff`: identifiers whose octets are handed out as text;
* `transport_forms`: of those a security identifier is read as from its octets, unless they are
  taken for a written form, and a globally unique identifier never;
* `sid_exists_form_iff`, `sid_read_of_form`: security identifiers are read from their forms, and
  from nothing else;
* `sid_canonical`: which of them are read as its canonical text.
-/
import DirectoryLens.Proofs.Converter.Guid
import DirectoryLens.Proofs.Identifier.Canonical
import DirectoryLens.Proofs.Identifier.Sid
import DirectoryLens.Proofs.Octets

namespace DirectoryLens.Converter

open Number Text

variable {i : Sid} {v : Value} {raw : RawValue} {bs : Octets} {s : String}

/-! ### Security identifiers -/

/-- Octets are read as the identifier that they are the stored form of. -/
@[simp] lemma readSidOctets_eq_ok_iff : readSidOctets bs = .ok i ↔ i.octets = bs := by
  rw [← Sid.ofOctets_eq_ok_iff, readSidOctets]
  cases Sid.ofOctets bs with
  | ok j =>
      show (Except.ok j : Except QueryError Sid) = .ok i ↔ _
      rw [Except.ok.injEq, Except.ok.injEq]
  | error fault => exact iff_of_false nofun nofun

/-- A text is read as the identifier whose numbers it spells. -/
@[simp] lemma readSidText_eq_ok_iff :
    readSidText s = .ok i ↔ Sid.Spells (trim s.toList) i.numbers := by
  rw [← Sid.ofText?_eq_some_iff, readSidText]
  cases Sid.ofText? s with
  | some j =>
      show (Except.ok j : Except QueryError Sid) = .ok i ↔ _
      rw [Except.ok.injEq, Option.some_inj]
  | none => exact iff_of_false nofun nofun

/-- Octets are read as the text of the identifier that they are the stored form of. -/
lemma sid_fromDirectory_binary_iff :
    sid.fromDirectory (.binary bs) = .ok v ↔ ∃ i : Sid, i.octets = bs ∧ .string i.text = v := by
  show (fun i : Sid => Value.string i.text) <$> readSidOctets bs = .ok v ↔ _
  simp

/-- A text that is taken for a written form is read as itself, any other as its octets are. -/
lemma sid_fromDirectory_text : sid.fromDirectory (.text s)
    = if s.toList.take 2 = ['S', '-'] then (fun _ => .string s) <$> readSidText s
      else (fun i : Sid => .string i.text) <$> readSidOctets (Octets.ofText s) :=
  rfl

/-- A text is written as the stored form of the identifier whose numbers it spells. -/
lemma sid_toDirectory_string_iff : sid.toDirectory (.string s) = .ok raw ↔
    ∃ i : Sid, Sid.Spells (trim s.toList) i.numbers ∧ .binary i.octets = raw := by
  show (fun i : Sid => RawValue.binary i.octets) <$> readSidText s = .ok raw ↔ _
  simp

/-- The text of an identifier is written as its stored form. -/
@[simp] lemma sid_toDirectory_text (i : Sid) :
    sid.toDirectory (.string i.text) = .ok (.binary i.octets) :=
  sid_toDirectory_string_iff.mpr ⟨i, i.spells_text, rfl⟩

/-- The stored form of an identifier is read as its text. -/
@[simp] lemma sid_fromDirectory_octets (i : Sid) :
    sid.fromDirectory (.binary i.octets) = .ok (.string i.text) :=
  sid_fromDirectory_binary_iff.mpr ⟨i, rfl, rfl⟩

/-- A text that is not written is refused as one that is no security identifier. -/
lemma sid_toDirectory_string_of_forall_ne (h : ∀ raw, sid.toDirectory (.string s) ≠ .ok raw) :
    sid.toDirectory (.string s) = .error (.conversionFailed "windows_sid" (.notOfForm s .sid)) := by
  have hshow : sid.toDirectory (.string s)
      = (fun i : Sid => RawValue.binary i.octets) <$> readSidText s := rfl
  rw [hshow] at h ⊢
  rw [readSidText] at h ⊢
  cases hread : Sid.ofText? s with
  | none => rfl
  | some i =>
      rw [hread] at h
      exact absurd rfl (h _)

/-- **Writing a security identifier undoes reading it, over all octets and texts.** Octets are
taken, for reading as for writing, just when they have the frame of an identifier; the text that
they are read as is written as those octets, and spells the numbers that they hold. A text is
written just when it spells numbers that fit; it is then written as octets that hold these numbers,
and the text that those are read as spells the same numbers and is written as the same octets. A
text whose numbers do not fit is refused. -/
theorem sid_inverse (bs : Octets) (s : String) :
    ((∃ v, sid.fromDirectory (.binary bs) = .ok v) ↔ Sid.Framed bs)
      ∧ (sid.toDirectory (.binary bs) = .ok (.binary bs) ↔ Sid.Framed bs)
      ∧ (∀ v, sid.fromDirectory (.binary bs) = .ok v →
        ∃ (t : String) (w : Sid.Numbers), v = .string t
          ∧ sid.toDirectory (.string t) = .ok (.binary bs)
          ∧ w.Stored bs ∧ Sid.Spells (trim t.toList) w)
      ∧ ((∃ raw, sid.toDirectory (.string s) = .ok raw)
        ↔ ∃ w : Sid.Numbers, Sid.Spells (trim s.toList) w ∧ w.Fits)
      ∧ (∀ raw, sid.toDirectory (.string s) = .ok raw →
        ∃ (os : Octets) (t : String) (w : Sid.Numbers), raw = .binary os
          ∧ sid.fromDirectory (.binary os) = .ok (.string t)
          ∧ sid.toDirectory (.string t) = .ok (.binary os)
          ∧ Sid.Spells (trim s.toList) w ∧ Sid.Spells (trim t.toList) w ∧ w.Stored os)
      ∧ (∀ w : Sid.Numbers, Sid.Spells (trim s.toList) w →
        (0xFF < w.revision ∨ 0x1_0000_0000_0000 ≤ w.authority
          ∨ (∃ n ∈ w.subAuthorities, 0xFFFF_FFFF < n) ∨ 0xFF < w.subAuthorities.length) →
        sid.toDirectory (.string s)
          = .error (.conversionFailed "windows_sid" (.notOfForm s .sid))) := by
  have hframed : (∃ v, sid.fromDirectory (.binary bs) = .ok v) ↔ Sid.Framed bs := by
    simp only [← Sid.exists_ofOctets_iff, Sid.ofOctets_eq_ok_iff, sid_fromDirectory_binary_iff]
    exact ⟨fun ⟨_, i, hi, _⟩ => ⟨i, hi⟩, fun ⟨i, hi⟩ => ⟨_, i, hi, rfl⟩⟩
  refine ⟨hframed, ?_, fun v hv => ?_, ?_, fun raw hraw => ?_, fun w hw hlarge => ?_⟩
  · have hwrite : sid.toDirectory (.binary bs) = (fun _ => .binary bs) <$> readSidOctets bs := rfl
    rw [← Sid.exists_ofOctets_iff, hwrite]
    simp [Sid.ofOctets_eq_ok_iff]
  · obtain ⟨i, rfl, rfl⟩ := sid_fromDirectory_binary_iff.mp hv
    exact ⟨i.text, i.numbers, rfl, sid_toDirectory_text i, i.stored_octets, i.spells_text⟩
  · simp only [sid_toDirectory_string_iff]
    constructor
    · rintro ⟨_, i, hi, -⟩
      exact ⟨i.numbers, hi, i.fits_numbers⟩
    · rintro ⟨w, hw, hfits⟩
      obtain ⟨i, rfl⟩ := hfits.exists_eq
      exact ⟨_, i, hw, rfl⟩
  · obtain ⟨i, hi, rfl⟩ := sid_toDirectory_string_iff.mp hraw
    exact ⟨i.octets, i.text, i.numbers, rfl, sid_fromDirectory_octets i, sid_toDirectory_text i, hi,
      i.spells_text, i.stored_octets⟩
  · refine sid_toDirectory_string_of_forall_ne fun raw hraw => ?_
    obtain ⟨i, hi, -⟩ := sid_toDirectory_string_iff.mp hraw
    obtain rfl := hw.unique hi
    obtain ⟨hrevision, hauthority, hsub, hlength⟩ := i.fits_numbers
    rcases hlarge with h | h | ⟨n, hn, h⟩ | h
    · omega
    · omega
    · exact absurd (hsub n hn) (by omega)
    · omega

/-- A letter of the other case, signs and zeros are read over, and blanks around them; what is too
great is refused. -/
theorem sid_inverse_signedNumbers :
    let bs : Octets := [1, 1, 0, 0, 0, 0, 0, 5, 21, 0, 0, 0]
    sid.toDirectory (.string " s-+1-005-021 ") = .ok (.binary bs)
      ∧ (∃ t, sid.fromDirectory (.binary bs) = .ok (.string t)
        ∧ sid.toDirectory (.string t) = .ok (.binary bs))
      ∧ sid.toDirectory (.string "S-256-5")
        = .error (.conversionFailed "windows_sid" (.notOfForm "S-256-5" .sid)) := by
  intro bs
  have hwrite : sid.toDirectory (.string " s-+1-005-021 ") = .ok (.binary bs) := by decide
  have hspells : Sid.Spells (trim "S-256-5".toList) ⟨256, 5, []⟩ :=
    Sid.spells_iff.mpr ⟨['S'], "256".toList, "5".toList, [], by decide, by decide,
      readNat?_eq_some_iff.mp (by decide), readNat?_eq_some_iff.mp (by decide), .nil⟩
  refine ⟨hwrite, ?_, (sid_inverse bs "S-256-5").2.2.2.2.2 _ hspells (.inl (by decide))⟩
  obtain ⟨-, -, -, -, hback, -⟩ := sid_inverse bs " s-+1-005-021 "
  obtain ⟨os, t, -, hos, hread, hagain, -⟩ := hback _ hwrite
  obtain rfl : bs = os := RawValue.binary.inj hos
  exact ⟨t, hread, hagain⟩

/-! ### Octets that are handed out as text -/

/-- A text of octets that make a globally unique identifier is no written form of one. -/
lemma guid_text_of_octets (h : Octets.toText? bs = some s)
    (hguid : guid.fromDirectory (.binary bs) = .ok v) :
    guid.fromDirectory (.text s)
      = .error (.conversionFailed "windows_guid" (.notOfForm s .guid)) := by
  have hlength : bs.length = 16 := by
    by_contra hne
    rw [(guid_binary_of_length_ne hne).1] at hguid
    cases hguid
  have hshort := Octets.length_le_length_ofText s
  rw [Octets.ofText_of_toText? h] at hshort
  show (fun g : Guid => Value.string g.text)
    <$> expectForm "windows_guid" s .guid (Guid.ofText? s) = _
  rw [Guid.ofText?_eq_none_of_length_lt (by omega)]
  rfl

/-- A text is taken for the written form of a security identifier when its octets start with those
of the letter and a hyphen. -/
lemma take_two_eq_iff : s.toList.take 2 = ['S', '-'] ↔ [0x53, 0x2D] <+: Octets.ofText s := by
  rw [Octets.ofText]
  constructor
  · intro h
    rw [← List.take_append_drop 2 s.toList, h, List.flatMap_append]
    exact List.prefix_append _ _
  · rintro ⟨rest, h⟩
    obtain ⟨cs, hcs, h⟩ := Octets.exists_of_flatMap_eq_cons h.symm (by decide)
    obtain ⟨ds, rfl, -⟩ := Octets.exists_of_flatMap_eq_cons h (by decide)
    rw [hcs]
    rfl

/-- Octets and a text are refused for different reasons. -/
lemma readSidOctets_ne_readSidText {fault : QueryError} (hoctets : readSidOctets bs = .error fault)
    (htext : readSidText s = .error fault) : False := by
  rw [readSidOctets] at hoctets
  rw [readSidText] at htext
  cases hread : Sid.ofText? s with
  | some j =>
      rw [hread] at htext
      cases htext
  | none =>
      rw [hread] at htext
      obtain rfl := Except.error.inj htext
      split at hoctets
      · cases hoctets
      · cases hoctets

/-- A text that is not taken for the written form of a security identifier is read as its octets,
and one that is taken for it never is. -/
lemma sid_text_eq_binary_iff (h : Octets.toText? bs = some s) :
    sid.fromDirectory (.text s) = sid.fromDirectory (.binary bs) ↔ ¬ [0x53, 0x2D] <+: bs := by
  have hbs := Octets.ofText_of_toText? h
  have hstored : sid.fromDirectory (.binary bs)
      = (fun i : Sid => Value.string i.text) <$> readSidOctets bs := rfl
  rw [sid_fromDirectory_text, hstored, hbs, ← hbs, ← take_two_eq_iff, hbs]
  split_ifs with hform
  · refine iff_of_false (fun heq => ?_) (not_not.mpr hform)
    cases hread : readSidOctets bs with
    | ok i =>
        -- the text would be the written form of an identifier that has its octets for stored form
        rw [hread] at heq
        obtain ⟨j, -, hj⟩ := map_eq_ok.mp heq
        refine i.octets_ne_ofText_text ?_
        rw [← Value.string.inj hj, hbs]
        exact readSidOctets_eq_ok_iff.mp hread
    | error fault =>
        -- both may be refused, but never for the same reason
        rw [hread] at heq
        exact readSidOctets_ne_readSidText hread (map_eq_error.mp heq)
  · exact iff_of_true rfl hform

/-- **Identifiers whose octets are handed out as text.** Octets that make a globally unique
identifier are refused as a text, all of them; those of a security identifier are read as themselves
unless they start like a written form, which those of another revision than the code of its letter
never do. -/
theorem transport_forms (h : Octets.toText? bs = some s) :
    (∀ v, guid.fromDirectory (.binary bs) = .ok v →
        guid.fromDirectory (.text s)
          = .error (.conversionFailed "windows_guid" (.notOfForm s .guid)))
      ∧ (sid.fromDirectory (.text s) = sid.fromDirectory (.binary bs) ↔ ¬ [0x53, 0x2D] <+: bs)
      ∧ (bs.head? ≠ some 0x53 → ∀ v, sid.fromDirectory (.binary bs) = .ok v →
        sid.fromDirectory (.text s) = .ok v) := by
  refine ⟨fun v => guid_text_of_octets h, sid_text_eq_binary_iff h, fun hhead v hv => ?_⟩
  rw [(sid_text_eq_binary_iff h).mpr, hv]
  rintro ⟨rest, rfl⟩
  exact hhead rfl

/-- The text of sixteen octets is refused, and that of eight is read as the identifier without
sub-authorities that they make. -/
theorem transport_forms_asciiOctets :
    let bs : Octets := Octets.ofText "0123456789abcdef"
    let head : Octets := [1, 0, 0, 0, 0, 0, 0, 5]
    guid.fromDirectory (.binary bs) = .ok (.string "33323130-3534-3736-3839-616263646566")
      ∧ guid.fromDirectory (.text "0123456789abcdef")
        = .error (.conversionFailed "windows_guid" (.notOfForm "0123456789abcdef" .guid))
      ∧ sid.fromDirectory (.binary head) = .ok (.string "S-1-5")
      ∧ sid.fromDirectory (.text "\x01\x00\x00\x00\x00\x00\x00\x05") = .ok (.string "S-1-5") := by
  intro bs head
  have hguid : guid.fromDirectory (.binary bs)
      = .ok (.string "33323130-3534-3736-3839-616263646566") := by rfl
  have hsid : sid.fromDirectory (.binary head) = .ok (.string "S-1-5") := by rfl
  have hhead : Octets.toText? head = some "\x01\x00\x00\x00\x00\x00\x00\x05" :=
    Octets.toText?_ofText "\x01\x00\x00\x00\x00\x00\x00\x05"
  exact ⟨hguid, (transport_forms (Octets.toText?_ofText _)).1 _ hguid, hsid,
    (transport_forms hhead).2.2 (by decide) _ hsid⟩

/-- Octets that are read as an identifier are not always read alike when they are handed out as
text. -/
theorem not_every_identifier_alike :
    ¬ ∀ (bs : Octets) (s : String) (v : Value), Octets.toText? bs = some s →
      guid.fromDirectory (.binary bs) = .ok v → guid.fromDirectory (.text s) = .ok v := by
  intro h
  have hsame := h _ "0123456789abcdef" (.string "33323130-3534-3736-3839-616263646566")
    (Octets.toText?_ofText _) (by rfl)
  have hrefused : guid.fromDirectory (.text "0123456789abcdef")
      = .error (.conversionFailed "windows_guid" (.notOfForm "0123456789abcdef" .guid)) := by rfl
  rw [hrefused] at hsame
  cases hsame

/-! ### Canonical texts -/

/-- A form of an identifier is read as a text that spells its numbers: as the written form, unless
it is taken for one itself. -/
lemma sid_read_of_form (h : i.Form raw) : ∃ s : String, sid.fromDirectory raw = .ok (.string s)
    ∧ Sid.Spells (trim s.toList) i.numbers
    ∧ ((∀ t, raw = .text t → ¬ Sid.Written t) → s = i.text) := by
  cases h with
  | octets => exact ⟨i.text, sid_fromDirectory_octets i, i.spells_text, fun _ => rfl⟩
  | transported t hform h =>
      refine ⟨i.text, ?_, i.spells_text, fun _ => rfl⟩
      rw [Sid.Written] at hform
      rw [sid_fromDirectory_text, if_neg hform]
      simpa using ⟨i, h.symm, rfl⟩
  | written t hform h =>
      refine ⟨t, ?_, h, fun hnot => absurd hform (hnot t rfl)⟩
      rw [Sid.Written] at hform
      rw [sid_fromDirectory_text, if_pos hform]
      simpa using ⟨i, h⟩

/-- Values are read just when they are a form of an identifier. -/
lemma sid_exists_form_iff : (∃ v, sid.fromDirectory raw = .ok v) ↔ ∃ i : Sid, i.Form raw := by
  constructor
  · rintro ⟨v, h⟩
    cases raw with
    | binary bs =>
        obtain ⟨i, rfl, -⟩ := sid_fromDirectory_binary_iff.mp h
        exact ⟨i, .octets⟩
    | text t =>
        rw [sid_fromDirectory_text] at h
        split_ifs at h with hform
        · obtain ⟨i, hi, -⟩ := map_eq_ok.mp h
          exact ⟨i, .written t hform (readSidText_eq_ok_iff.mp hi)⟩
        · obtain ⟨i, hi, -⟩ := map_eq_ok.mp h
          exact ⟨i, .transported t hform (readSidOctets_eq_ok_iff.mp hi).symm⟩
  · rintro ⟨i, h⟩
    obtain ⟨s, hs, -⟩ := sid_read_of_form h
    exact ⟨_, hs⟩

/-- **Security identifiers that are read are written as their octets, and the plain ones are
canonical.** A value that is read is a form of an identifier. The text that it is read as is written
as the octets of this identifier, so that what is compared with it finds the same objects. Those
octets are read as the same text just when it is plain, which it always is but for values that are
taken for written forms themselves. Every other form of the identifier is written as the same
octets too, and read as the same plain text just when it is read as a plain one. -/
theorem sid_canonical (h : sid.fromDirectory raw = .ok (.string s)) :
    ∃ i : Sid, i.Form raw
      ∧ sid.toDirectory (.string s) = .ok (.binary i.octets)
      ∧ sid.fromDirectory (.binary i.octets) = .ok (.string i.text)
      ∧ (s = i.text ↔ Sid.Plain s.toList)
      ∧ ((∀ t, raw = .text t → ¬ Sid.Written t) → s = i.text)
      ∧ ∀ raw', i.Form raw' → ∃ s' : String, sid.fromDirectory raw' = .ok (.string s')
          ∧ sid.toDirectory (.string s') = .ok (.binary i.octets)
          ∧ (Sid.Plain s.toList → (s' = s ↔ Sid.Plain s'.toList)) := by
  obtain ⟨i, hi⟩ := sid_exists_form_iff.mp ⟨_, h⟩
  obtain ⟨s₀, hs₀, hspells, hcanonical⟩ := sid_read_of_form hi
  obtain rfl : s = s₀ := Value.string.inj (Except.ok.inj (h.symm.trans hs₀))
  refine ⟨i, hi, sid_toDirectory_string_iff.mpr ⟨i, hspells, rfl⟩, sid_fromDirectory_octets i,
    Sid.eq_text_iff hspells, hcanonical, fun raw' hi' => ?_⟩
  obtain ⟨s', hs', hspells', -⟩ := sid_read_of_form hi'
  refine ⟨s', hs', sid_toDirectory_string_iff.mpr ⟨i, hspells', rfl⟩, fun hplain => ?_⟩
  rw [(Sid.eq_text_iff hspells).mpr hplain, Sid.eq_text_iff hspells']

/-- A zero at the head of a number is kept, and is lost on the way through the octets. -/
theorem sid_canonical_leadingZero :
    let bs : Octets := [1, 2, 0, 0, 0, 0, 0, 5, 0x20, 0, 0, 0, 0x20, 2, 0, 0]
    sid.fromDirectory (.text "S-1-5-32-0544") = .ok (.string "S-1-5-32-0544")
      ∧ sid.toDirectory (.string "S-1-5-32-0544") = .ok (.binary bs)
      ∧ sid.fromDirectory (.binary bs) = .ok (.string "S-1-5-32-544")
      ∧ ¬ Sid.Plain "S-1-5-32-0544".toList ∧ Sid.Plain "S-1-5-32-544".toList := by
  intro bs
  have htext : sid.fromDirectory (.text "S-1-5-32-0544") = .ok (.string "S-1-5-32-0544") := by rfl
  have hwrite : sid.toDirectory (.string "S-1-5-32-0544") = .ok (.binary bs) := by decide
  have hoctets : sid.fromDirectory (.binary bs) = .ok (.string "S-1-5-32-544") := by rfl
  obtain ⟨i, -, hi, hread, hplain, -⟩ := sid_canonical htext
  have hbs : bs = i.octets := RawValue.binary.inj (Except.ok.inj (hwrite.symm.trans hi))
  rw [← hbs] at hread
  have htext' : "S-1-5-32-544" = i.text :=
    Value.string.inj (Except.ok.inj (hoctets.symm.trans hread))
  refine ⟨htext, hwrite, hoctets, ?_, ?_⟩
  · rw [← hplain, ← htext']
    decide
  · rw [htext']
    exact i.plain_text

/-- Not every text that is read as an identifier is the one that its octets are read as. -/
theorem not_every_sid_canonical :
    ¬ ∀ (raw : RawValue) (s : String) (bs : Octets), sid.fromDirectory raw = .ok (.string s) →
      sid.toDirectory (.string s) = .ok (.binary bs) →
      sid.fromDirectory (.binary bs) = .ok (.string s) := by
  intro h
  have hsame := h (.text "S-1-5-32-0544") "S-1-5-32-0544"
    [1, 2, 0, 0, 0, 0, 0, 5, 0x20, 0, 0, 0, 0x20, 2, 0, 0] (by rfl) (by decide)
  have hread : sid.fromDirectory (.binary [1, 2, 0, 0, 0, 0, 0, 5, 0x20, 0, 0, 0, 0x20, 2, 0, 0])
      = .ok (.string "S-1-5-32-544") := by rfl
  have heq := Value.string.inj (Except.ok.inj (hread.symm.trans hsame))
  revert heq
  decide

end DirectoryLens.Converter
