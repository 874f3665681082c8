/-
Converters between the values of a program and those of a directory.

* `Converter`: the two directions, and the bit that a flag stands for;
* `requireText`: the text of a raw value, for converters that read text alone;
* `leadingInteger?`: the number at the head of a text;
* `refuseKind`: the refusal of a value for what sort of value it is.
-/
import DirectoryLens.Value.Stored

namespace DirectoryLens

/-- A conversion between values and raw values. -/
structure Converter where
  /-- The stored form of a value. -/
  toDirectory : Value → Except QueryError RawValue
  /-- The value of a stored form. -/
  fromDirectory : RawValue → Except QueryError Value
  /-- The bit that a true value stands for, of a converter for one bit of a number. -/
  flagMask : Option UInt32

namespace Converter

open Number Text

/-- The text of a raw value; octets that are no text are refused in a converter's name. -/
def requireText (name : String) (raw : RawValue) : Except QueryError String :=
  match raw.text? with
  | some s => .ok s
  | none => .error (.conversionFailed name .notText)

/-- A text that is not of a form is refused in a converter's name. -/
def refuseText {α : Type} (name s : String) (form : TextForm) : Except QueryError α :=
  .error (.conversionFailed name (.notOfForm s form))

/-- A value is refused in a converter's name for what sort of value it is. -/
def refuseKind {α : Type} (name : String) (v : Value) : Except QueryError α :=
  .error (.conversionFailed name (.kindRefused v.kind))

/-- What a text denotes, or its refusal. -/
def expectForm {α : Type} (name s : String) (form : TextForm) : Option α → Except QueryError α
  | some a => .ok a
  | none => refuseText name s form

/-- What a text is read as is what it denotes. -/
@[simp] theorem expectForm_eq_ok_iff {α : Type} {name s : String} {form : TextForm}
    {r : Option α} {a : α} :
    expectForm name s form r = .ok a ↔ r = some a := by
  cases r with
  | some b => simp [expectForm]
  | none => simp [expectForm, refuseText]

/-- The sign at the head of a text, if there is one, and the digits behind it. -/
def signedRun : List Char → List Char
  | c :: s => if c = '+' || c = '-' then c :: s.takeWhile Char.isDigit
    else (c :: s).takeWhile Char.isDigit
  | [] => []

/-- The integer at the head of a text: blanks, a sign at most, and digits, whatever follows. -/
def leadingInteger? (s : String) : Option Int64 :=
  readInt64? (signedRun (trimStart s.toList))

end Converter

end DirectoryLens
