/-
Integers at the head of a text, and the converter for integers.

* `StartsWith`: blanks, digits with one sign before them at most, and whatever is no digit behind
  them;
* `leadingInteger?_eq_some_iff`, `leadingInteger?_eq_none_iff`: the number that a text starts with
  is read, if sixty-four bits hold it;
* `integer_toDirectory_iff`: a text is taken for the number that it is, blanks apart;
* `integer_exact`: what is read and written of integers, texts and their numbers.
-/
import DirectoryLens.Proofs.Converter.Flag

namespace DirectoryLens.Converter

open Number Text

/-! ### The number at the head of a text -/

/-- A text starts with a number: there may be blanks before it, and no digit stands behind it. -/
def StartsWith (s : List Char) (k : Int) : Prop :=
  ∃ blanks numeral rest, s = blanks ++ numeral ++ rest ∧ (∀ c ∈ blanks, isBlank c = true)
    ∧ Signed numeral k ∧ ∀ c ∈ rest.head?, c.isDigit = false

/-- The run at the head of a text ends where no digit follows. -/
lemma exists_signedRun_append (s : List Char) :
    ∃ rest, s = signedRun s ++ rest ∧ ∀ c ∈ rest.head?, c.isDigit = false := by
  cases s with
  | nil => exact ⟨[], rfl, nofun⟩
  | cons c s =>
      rw [signedRun]
      split_ifs
      · obtain ⟨rest, hs, hrest⟩ := exists_run_append Char.isDigit s
        exact ⟨rest, by rw [List.cons_append, ← hs], hrest⟩
      · exact exists_run_append Char.isDigit (c :: s)

/-- A signed numeral starts with no blank. -/
lemma trimStart_numeral_append {numeral : List Char} {k : Int} (h : Signed numeral k)
    (rest : List Char) : trimStart (numeral ++ rest) = numeral ++ rest := by
  refine trimStart_eq_self fun c hc => ?_
  have hne : numeral ≠ [] := by
    cases h with
    | bare h => exact h.1
    | plus h | minus h => exact List.cons_ne_nil _ _
  rw [List.head?_append_of_ne_nil _ hne] at hc
  exact h.isBlank_of_mem (List.mem_of_head? hc)

/-- **The run at the head of a text is a numeral just when the text starts with its number.** -/
theorem startsWith_iff {s : List Char} {k : Int} :
    StartsWith s k ↔ Signed (signedRun (trimStart s)) k := by
  constructor
  · rintro ⟨blanks, numeral, rest, rfl, hblanks, hnumeral, hrest⟩
    rw [List.append_assoc, trimStart_append, if_pos (trimStart_eq_nil hblanks),
      trimStart_numeral_append hnumeral, signedRun_append hnumeral hrest]
    exact hnumeral
  · intro h
    obtain ⟨blanks, hblanks, hs⟩ := exists_blanks_append s
    obtain ⟨rest, hrun, hrest⟩ := exists_signedRun_append (trimStart s)
    refine ⟨blanks, _, rest, ?_, hblanks, h, hrest⟩
    rw [List.append_assoc, ← hrun]
    exact hs

/-- The number that a text starts with is read, if sixty-four bits hold it. -/
lemma leadingInteger?_eq_some_iff {t : String} {n : Int64} :
    leadingInteger? t = some n ↔ StartsWith t.toList n.toInt := by
  rw [startsWith_iff, leadingInteger?, readInt64?_eq_some_iff]

/-- Nothing is read when a text starts with no number, or with one that sixty-four bits do not
hold. -/
lemma leadingInteger?_eq_none_iff {t : String} :
    leadingInteger? t = none ↔ ∀ k, StartsWith t.toList k → ¬ Fits k := by
  rw [Option.eq_none_iff_forall_ne_some]
  constructor
  · intro h k hk hfits
    obtain ⟨n, -, rfl⟩ := hfits.exists_int64?
    exact h n (leadingInteger?_eq_some_iff.mpr hk)
  · intro h n hn
    exact h n.toInt (leadingInteger?_eq_some_iff.mp hn) (fits_toInt n)

/-! ### The converter for integers -/

/-- The converter for integers reads the number that a text starts with. -/
lemma integer_fromDirectory_text (t : String) : integer.fromDirectory (.text t)
    = Value.integer <$> expectForm "int" t .integer (leadingInteger? t) :=
  rfl

/-- The converter for integers takes a text for the number that it is, blanks around it apart, and
writes that number. -/
lemma integer_toDirectory_iff {s : String} {raw : RawValue} :
    integer.toDirectory (.string s) = .ok raw
      ↔ ∃ n : Int64, Signed (trim s.toList) n.toInt ∧ raw = .text (decimal n.toInt) := by
  show (expectForm "int" s .integer (readInt64? (trim s.toList))).bind
    (fun n => .ok (.text (decimal n.toInt))) = .ok raw ↔ _
  simp only [← readInt64?_eq_some_iff]
  cases readInt64? (trim s.toList) with
  | none => simp [expectForm, refuseText, Except.bind]
  | some n => simp [expectForm, Except.bind, eq_comm]

/-- **Integers are converted exactly.** An integer comes back as it was. A text is read as the
number that it starts with, whatever stands behind it; when it starts with none, or with one that
sixty-four bits do not hold, it is refused. A text that is itself a number, blanks around it apart,
is written as the canonical text of that number, which is read as it, if sixty-four bits hold it,
and no other text is taken. -/
theorem integer_exact :
    (∀ n : Int64, (integer.toDirectory (.integer n)).bind integer.fromDirectory = .ok (.integer n))
      ∧ (∀ t n, integer.fromDirectory (.text t) = .ok (.integer n)
        ↔ StartsWith t.toList n.toInt)
      ∧ (∀ t, integer.fromDirectory (.text t)
          = .error (.conversionFailed "int" (.notOfForm t .integer))
        ↔ ∀ k, StartsWith t.toList k → ¬ Fits k)
      ∧ (∀ s raw, integer.toDirectory (.string s) = .ok raw → ∃ n : Int64, ∃ text,
        Signed (trim s.toList) n.toInt ∧ raw = .text text ∧ Canonical text.toList n.toInt
          ∧ integer.fromDirectory raw = .ok (.integer n))
      ∧ ∀ s, (∃ raw, integer.toDirectory (.string s) = .ok raw)
        ↔ ∃ k, Signed (trim s.toList) k ∧ Fits k := by
  have hback : ∀ n : Int64,
      integer.fromDirectory (.text (decimal n.toInt)) = .ok (.integer n) := fun n =>
    integer_fromDirectory rfl (leadingInteger?_decimal n)
  refine ⟨hback, fun t n => ?_, fun t => ?_, fun s raw h => ?_, fun s => ?_⟩
  · rw [integer_fromDirectory_text, ← leadingInteger?_eq_some_iff]
    cases leadingInteger? t with
    | none => simp [expectForm, refuseText]
    | some m => simp [expectForm]
  · rw [integer_fromDirectory_text, ← leadingInteger?_eq_none_iff]
    cases leadingInteger? t with
    | none => exact iff_of_true rfl rfl
    | some m => simp [expectForm]
  · obtain ⟨n, hn, rfl⟩ := integer_toDirectory_iff.mp h
    exact ⟨n, _, hn, rfl, canonical_decimal n.toInt, hback n⟩
  · simp only [integer_toDirectory_iff]
    constructor
    · rintro ⟨-, n, hn, -⟩
      exact ⟨n.toInt, hn, fits_toInt n⟩
    · rintro ⟨k, hk, hfits⟩
      obtain ⟨n, -, rfl⟩ := hfits.exists_int64?
      exact ⟨_, n, hk, rfl⟩

example : integer.fromDirectory (.text "\t -0042Z") = .ok (.integer (-42)) := rfl

example : integer.fromDirectory (.text "-9223372036854775809")
    = .error (.conversionFailed "int" (.notOfForm "-9223372036854775809" .integer)) := rfl

example : integer.toDirectory (.string "+007 ") = .ok (.text "7") := rfl

end DirectoryLens.Converter
