/-
The one text of a security identifier that is canonical.

* `Sid.Plain`: a text is the letter and plain numerals behind hyphens, with nothing around them;
* `plain_text`: the written form is plain;
* `Plain.eq_text`, `eq_text_iff`: of the texts that spell the numbers of an identifier it is the
  only one that is;
* `Sid.Form`: the values that a directory may hand out for an identifier.
-/
import DirectoryLens.Proofs.Identifier.Sid
import DirectoryLens.Value.Basic

namespace DirectoryLens.Sid

open Number Text

variable {i : Sid} {s : List Char}

/-! ### Plain texts -/

/-- A text is plain: the letter in upper case, and behind a hyphen each plain numerals. -/
def Plain (s : List Char) : Prop :=
  ∃ ps : List (List Char), s = 'S' :: ps.flatMap ('-' :: ·) ∧ ∀ p ∈ ps, Number.Plain p

/-- A plain text has no blanks around it. -/
lemma Plain.trim_eq (h : Plain s) : trim s = s := by
  obtain ⟨ps, rfl, hps⟩ := h
  refine trim_eq_self fun c hc => ?_
  simp only [List.mem_cons, List.mem_flatMap] at hc
  rcases hc with rfl | ⟨p, hp, rfl | hc⟩
  · decide
  · decide
  · exact isBlank_of_isDigit ((hps p hp).2.1 c hc)

/-- The parts of a plain text are the letter and its numerals. -/
lemma parts_of_plain {ps : List (List Char)} (hps : ∀ p ∈ ps, Number.Plain p) :
    parts ('S' :: ps.flatMap ('-' :: ·)) = ['S'] :: ps := by
  refine (parts_eq_iff ?_).mpr rfl
  rw [List.forall_mem_cons]
  exact ⟨by decide, fun p hp hhyphen => absurd ((hps p hp).2.1 '-' hhyphen) (by decide)⟩

/-- The written form is plain. -/
lemma plain_text (i : Sid) : Plain i.text.toList := by
  refine ⟨digits i.revision.toNat :: digits i.authority
    :: i.subAuthorities.map fun n => digits n.toNat, ?_, ?_⟩
  · simp [text, List.flatMap_map]
  · simp only [List.forall_mem_cons, List.forall_mem_map]
    exact ⟨plain_digits _, plain_digits _, fun n _ => plain_digits _⟩

/-- A plain text that spells the numbers of an identifier is its written form. -/
lemma Plain.eq_text (hplain : Plain s) (h : Spells (trim s) i.numbers) : s = i.text.toList := by
  rw [hplain.trim_eq, spells_iff] at h
  obtain ⟨ps, rfl, hps⟩ := hplain
  obtain ⟨mark, revision, authority, subs, hparts, -, hr, ha, hs⟩ := h
  rw [parts_of_plain hps, List.cons.injEq] at hparts
  obtain ⟨-, rfl⟩ := hparts
  simp only [List.forall_mem_cons] at hps
  obtain ⟨hrevision, hauthority, hplain⟩ := hps
  have hsubs : subs = i.subAuthorities.map fun n => digits n.toNat := by
    rw [numbers, List.forall₂_map_right_iff] at hs
    rw [← List.forall₂_eq_eq_eq, List.forall₂_map_right_iff]
    exact ((List.forall₂_and_left _ _).mpr ⟨hplain, hs⟩).imp
      fun p n hp => hp.1.eq_digits_of_numeral hp.2
  rw [hrevision.eq_digits_of_numeral hr, hauthority.eq_digits_of_numeral ha, hsubs]
  simp [text, List.flatMap_map, numbers]

/-- **Of the texts that spell the numbers of an identifier the written form is the plain one.** -/
theorem eq_text_iff {t : String} (h : Spells (trim t.toList) i.numbers) :
    t = i.text ↔ Plain t.toList := by
  constructor
  · rintro rfl
    exact i.plain_text
  · exact fun hplain => String.toList_injective (hplain.eq_text h)

/-! ### Forms -/

/-- A text is taken for a written form when it starts like one. -/
def Written (t : String) : Prop :=
  t.toList.take 2 = ['S', '-']

/-- What a directory hands out for an identifier: its octets, a text that is made of them, or a
text that spells its numbers. -/
inductive Form (i : Sid) : RawValue → Prop
  | octets : Form i (.binary i.octets)
  | transported (t : String) (hform : ¬ Written t) (h : Octets.ofText t = i.octets) :
      Form i (.text t)
  | written (t : String) (hform : Written t) (h : Spells (trim t.toList) i.numbers) :
      Form i (.text t)

end DirectoryLens.Sid
