/-
The control word of accounts.

* `AccountControl`: 32 bits, and the flags that some of them are;
* `AccountControl.ofValue?`: the word that a value holds;
* `AccountControl.has`, `withFlag`, `withoutFlag`: reading and changing flags;
* `AccountControl.text`: the word in hexadecimal digits.
-/
import DirectoryLens.Text.Blank
import DirectoryLens.Value.Basic

namespace DirectoryLens

/-- The control word of an account. -/
structure AccountControl where
  bits : UInt32
  deriving DecidableEq

namespace AccountControl

/-! ### Flags -/

/-- The account is disabled. -/
def disabledFlag : UInt32 := 0x2

/-- The account is locked out. -/
def lockedFlag : UInt32 := 0x10

/-- No password is required. -/
def passwordNotRequiredFlag : UInt32 := 0x20

/-- The password does not expire. -/
def passwordNeverExpiresFlag : UInt32 := 0x10000

/-- Every bit of a flag is set. -/
def has (a : AccountControl) (flag : UInt32) : Bool :=
  a.bits &&& flag == flag

/-- The word with the bits of a flag set. -/
def withFlag (a : AccountControl) (flag : UInt32) : AccountControl :=
  ⟨a.bits ||| flag⟩

/-- The word with the bits of a flag cleared. -/
def withoutFlag (a : AccountControl) (flag : UInt32) : AccountControl :=
  ⟨a.bits &&& ~~~flag⟩

/-- The account is disabled. -/
def isDisabled (a : AccountControl) : Bool :=
  a.has disabledFlag

/-- The account is locked out. -/
def isLocked (a : AccountControl) : Bool :=
  a.has lockedFlag

/-- The password does not expire. -/
def passwordNeverExpires (a : AccountControl) : Bool :=
  a.has passwordNeverExpiresFlag

/-- No password is required. -/
def passwordNotRequired (a : AccountControl) : Bool :=
  a.has passwordNotRequiredFlag

/-- The word of the account when it is disabled. -/
def disable (a : AccountControl) : AccountControl :=
  a.withFlag disabledFlag

/-- The word of the account when it is not. -/
def enable (a : AccountControl) : AccountControl :=
  a.withoutFlag disabledFlag

/-! ### Values and text -/

/-- The word that a value holds: an integer, or the digits of one, of 32 bits without sign. -/
def ofValue? : Value → Option AccountControl
  | .integer n =>
    if 0 ≤ n.toInt ∧ n.toInt < 0x1_0000_0000 then some ⟨UInt32.ofNat n.toInt.toNat⟩ else none
  | .string s =>
    (Number.readNatBelow? 0x1_0000_0000 (Text.trim s.toList)).map fun n => ⟨UInt32.ofNat n⟩
  | _ => none

/-- The word as a value. -/
def toValue (a : AccountControl) : Value :=
  .integer (Int64.ofNat a.bits.toNat)

/-- The word in the fewest hexadecimal digits. -/
def text (a : AccountControl) : String :=
  String.ofList ('0' :: 'x' :: Nat.toDigits 16 a.bits.toNat)

end AccountControl

end DirectoryLens
