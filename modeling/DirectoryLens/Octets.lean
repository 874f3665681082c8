/-
Octet strings: their hexadecimal text and their reading as UTF-8.

* `Octets`: a string of octets, as the directory stores values;
* `hexPair`, `toHex`, `ofHex?`: two lower-case digits an octet, and back in either case;
* `ofText`, `toText?`: the UTF-8 form of a text, and back where the octets are UTF-8;
* `ofHexPair?_hexPair`, `toText?_ofText`: what is written reads back.
-/

namespace DirectoryLens

/-- A string of octets. -/
abbrev Octets := List UInt8

namespace Octets

/-! ### Hexadecimal text -/

/-- The lower-case hexadecimal digit of a number below sixteen. -/
def hexDigit (n : Nat) : Char :=
  if n < 10 then Char.ofNat (48 + n) else Char.ofNat (87 + n)

/-- The value of a hexadecimal digit of either case. -/
def hexValue? (c : Char) : Option Nat :=
  if '0' ≤ c && c ≤ '9' then some (c.toNat - 48)
  else if 'a' ≤ c && c ≤ 'f' then some (c.toNat - 87)
  else if 'A' ≤ c && c ≤ 'F' then some (c.toNat - 55)
  else none

/-- The two hexadecimal digits of an octet, the high half first. -/
def hexPair (b : UInt8) : List Char :=
  [hexDigit (b.toNat / 16), hexDigit (b.toNat % 16)]

/-- The octet that two hexadecimal digits denote. -/
def ofHexPair? (high low : Char) : Option UInt8 := do
  let h ← hexValue? high
  let l ← hexValue? low
  return UInt8.ofNat (16 * h + l)

/-- The hexadecimal text of an octet string. -/
def hexChars (bs : Octets) : List Char :=
  bs.flatMap hexPair

/-- The octet string that a hexadecimal text denotes; an odd digit out denotes nothing. -/
def ofHexChars? : List Char → Option Octets
  | [] => some []
  | h :: l :: rest => do
    let b ← ofHexPair? h l
    let bs ← ofHexChars? rest
    return b :: bs
  | [_] => none

/-- The hexadecimal text of an octet string. -/
def toHex (bs : Octets) : String :=
  String.ofList (hexChars bs)

/-- The octet string that a hexadecimal text denotes. -/
def ofHex? (s : String) : Option Octets :=
  ofHexChars? s.toList

/-- A digit's value is the number it was written for. -/
theorem hexValue?_hexDigit {n : Nat} (h : n < 16) : hexValue? (hexDigit n) = some n := by
  have : ∀ m < 16, hexValue? (hexDigit m) = some m := by decide
  exact this n h

/-- An octet's two digits denote it. -/
theorem ofHexPair?_hexPair (b : UInt8) :
    ofHexPair? (hexDigit (b.toNat / 16)) (hexDigit (b.toNat % 16)) = some b := by
  have hb : b.toNat < 256 := b.toNat_lt
  rw [ofHexPair?, hexValue?_hexDigit (by omega), hexValue?_hexDigit (by omega)]
  simp only [Option.bind_eq_bind, Option.bind_some, Option.pure_def, Option.some.injEq]
  rw [Nat.div_add_mod]
  exact UInt8.ofNat_toNat

/-! ### UTF-8 -/

/-- The UTF-8 form of a text. -/
def ofText (s : String) : Octets :=
  s.toList.flatMap String.utf8EncodeChar

/-- The text whose UTF-8 form the octets are. -/
def toText? (bs : Octets) : Option String :=
  String.fromUTF8? bs.toByteArray

/-- The UTF-8 form of a text, as the octets it is kept in. -/
theorem toByteArray_ofText (s : String) : (ofText s).toByteArray = s.toByteArray := by
  rw [← String.ofList_toList (s := s), String.toByteArray_ofList, String.ofList_toList]
  rfl

/-- The UTF-8 form of a text is read as that text. -/
@[simp] theorem toText?_ofText (s : String) : toText? (ofText s) = some s := by
  rw [toText?, toByteArray_ofText, String.fromUTF8?, dif_pos s.isValidUTF8]
  rfl

end Octets

end DirectoryLens
