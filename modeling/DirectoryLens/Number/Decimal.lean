/-
Decimal texts of whole numbers.

* `decimal`: the canonical text of an integer, a minus sign and the fewest digits;
* `readDigits?`, `readNat?`, `readInt?`: digits alone, with a plus sign, with either sign;
* `int64?`, `readInt64?`: the integers of sixty-four bits;
* `readInt?_decimal`: a canonical text is read as the number it was written for.
-/

namespace DirectoryLens.Number

/-! ### Writing -/

/-- The decimal digits of a number, most significant first. -/
def digits (n : Nat) : List Char :=
  Nat.toDigits 10 n

/-- The canonical decimal text of an integer. -/
def decimalChars (n : Int) : List Char :=
  if n < 0 then '-' :: digits n.natAbs else digits n.natAbs

/-- The canonical decimal text of an integer. -/
def decimal (n : Int) : String :=
  String.ofList (decimalChars n)

/-! ### Reading -/

/-- The number that a run of ASCII digits denotes; an empty run denotes nothing. -/
def readDigits? (s : List Char) : Option Nat :=
  if s ≠ [] ∧ s.all Char.isDigit = true then some (Nat.ofDigitChars 10 s 0) else none

/-- The number that digits denote, one plus sign allowed before them. -/
def readNat? : List Char → Option Nat
  | '+' :: s => readDigits? s
  | s => readDigits? s

/-- The integer that digits denote, one sign allowed before them. -/
def readInt? : List Char → Option Int
  | '-' :: s => (readDigits? s).map fun n => -(n : Int)
  | '+' :: s => (readDigits? s).map Int.ofNat
  | s => (readDigits? s).map Int.ofNat

/-- The number that digits denote, where it lies below a bound. -/
def readNatBelow? (bound : Nat) (s : List Char) : Option Nat :=
  (readNat? s).filter (· < bound)

/-- An integer of sixty-four bits. -/
def int64? (n : Int) : Option Int64 :=
  if -0x8000_0000_0000_0000 ≤ n ∧ n < 0x8000_0000_0000_0000 then some (Int64.ofInt n) else none

/-- The sixty-four bit integer that digits denote, one sign allowed before them. -/
def readInt64? (s : List Char) : Option Int64 :=
  (readInt? s).bind int64?

/-! ### What is written reads back -/

/-- Digits are written for every number. -/
@[simp] theorem digits_ne_nil (n : Nat) : digits n ≠ [] :=
  Nat.toDigits_ne_nil

/-- Digits are ASCII digits. -/
theorem isDigit_of_mem_digits {n : Nat} {c : Char} (h : c ∈ digits n) : c.isDigit = true :=
  Nat.isDigit_of_mem_toDigits (by decide) (by decide) h

/-- The digits of a number denote it. -/
@[simp] theorem readDigits?_digits (n : Nat) : readDigits? (digits n) = some n := by
  have h : (digits n).all Char.isDigit = true :=
    List.all_eq_true.2 fun _ hc => isDigit_of_mem_digits hc
  rw [readDigits?, if_pos ⟨digits_ne_nil n, h⟩, digits, Nat.ofDigitChars_ten_toDigits]

/-- A canonical text is read as the number it was written for. -/
theorem readInt?_decimalChars (n : Int) : readInt? (decimalChars n) = some n := by
  unfold decimalChars
  split
  · rw [readInt?, readDigits?_digits]
    exact congrArg some (show -(n.natAbs : Int) = n by omega)
  · have hne := digits_ne_nil n.natAbs
    have hd := fun c => @isDigit_of_mem_digits n.natAbs c
    have hr := readDigits?_digits n.natAbs
    revert hne hd hr
    generalize digits n.natAbs = s
    intro hne hd hr
    match s, hne with
    | c :: rest, _ =>
      have hc := hd c (by simp)
      have h1 : c ≠ '-' := by rintro rfl; simp at hc
      have h2 : c ≠ '+' := by rintro rfl; simp at hc
      rw [readInt?.eq_def]
      split
      · simp_all
      · simp_all
      · simp only [hr, Option.map_some, Option.some.injEq]
        exact Int.natAbs_of_nonneg (by omega)

/-- A canonical text is read as the number it was written for. -/
@[simp] theorem readInt?_decimal (n : Int) : readInt? (decimal n).toList = some n := by
  rw [decimal, String.toList_ofList, readInt?_decimalChars]

/-- An integer of sixty-four bits is one. -/
@[simp] theorem int64?_toInt (n : Int64) : int64? n.toInt = some n := by
  rw [int64?, if_pos ⟨n.le_toInt, n.toInt_lt⟩, Int64.ofInt_toInt]

end DirectoryLens.Number
