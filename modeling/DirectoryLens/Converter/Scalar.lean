/-
Converters for truth values, integers and single bits.

* `Converter.boolean`: `TRUE` and `FALSE`;
* `Converter.integer`: decimal numbers, read up to the first character that is no digit;
* `Converter.flag`: one or more bits of a number, as a truth value.
-/
import DirectoryLens.Converter.Basic

namespace DirectoryLens.Converter

open Number Text

/-! ### Truth values -/

/-- The truth value that a text names, in any case, blanks around it allowed. -/
def readBoolean? (s : String) : Option Bool :=
  let word := (trim s.toList).map Char.toLower
  if word = "true".toList then some true
  else if word = "false".toList then some false
  else none

/-- The converter for truth values. A number is true when it is not zero. -/
def boolean : Converter where
  toDirectory v :=
    let write (b : Bool) : RawValue := .text (Value.booleanText b)
    match v with
    | .boolean b => .ok (write b)
    | .integer n => .ok (write (n.toInt ≠ 0))
    | .string s => write <$> expectForm "bool" s .boolean (readBoolean? s)
    | other => refuseKind "bool" other
  fromDirectory raw := do
    let s ← requireText "bool" raw
    Value.boolean <$> expectForm "bool" s .boolean (readBoolean? s)
  flagMask := none

/-! ### Integers -/

/-- The converter for integers. A truth value is written as one or zero. -/
def integer : Converter where
  toDirectory
    | .integer n => .ok (.text (decimal n.toInt))
    | .boolean b => .ok (.text (if b then "1" else "0"))
    | .string s => do
      let n ← expectForm "int" s .integer (readInt64? (trim s.toList))
      return .text (decimal n.toInt)
    | other => refuseKind "int" other
  fromDirectory raw := do
    let s ← requireText "int" raw
    Value.integer <$> expectForm "int" s .integer (leadingInteger? s)
  flagMask := none

/-! ### Flags -/

/-- The low 32 bits of a number, a negative one being taken as its complement. -/
def lowBits (n : Int64) : UInt32 :=
  UInt32.ofNat (n.toInt % 0x1_0000_0000).toNat

/-- The converter for the bits of a mask: true when all of them are set. It speaks of itself by
the given name. -/
def flag (name : String) (mask : UInt32) : Converter where
  toDirectory
    | .boolean true => .ok (.text (decimal mask.toNat))
    | .boolean false => .ok (.text "0")
    | .integer n => .ok (.text (decimal n.toInt))
    | other => refuseKind name other
  fromDirectory raw := do
    let s ← requireText name raw
    let n ← expectForm name s .bitfield (leadingInteger? s)
    return .boolean (lowBits n &&& mask == mask)
  flagMask := some mask

end DirectoryLens.Converter
