/-
Security identifiers.

* `Sid`: a revision, an authority of 48 bits and up to 255 sub-authorities of 32;
* `Sid.ofOctets`, `Sid.octets`: the stored form;
* `Sid.ofText?`, `Sid.text`: the written form, `S-` and numbers with hyphens.
-/
import DirectoryLens.Number.Decimal
import DirectoryLens.Octets
import DirectoryLens.Text.Blank

namespace DirectoryLens

open Number

/-- A security identifier. -/
structure Sid where
  revision : UInt8
  authority : Nat
  subAuthorities : List UInt32
  authority_lt : authority < 0x1_0000_0000_0000
  length_lt : subAuthorities.length < 256
  deriving DecidableEq

/-- Why octets are no security identifier. -/
inductive SidFault
  | shortHeader
  | wrongLength
  deriving DecidableEq

namespace Sid

/-! ### Stored form -/

/-- The number that octets denote, the greatest part first. -/
def bigEndian (bs : Octets) : Nat :=
  bs.foldl (fun n b => 256 * n + b.toNat) 0

/-- Six octets denote a number of 48 bits. -/
theorem bigEndian_lt (a b c d e f : UInt8) :
    bigEndian [a, b, c, d, e, f] < 0x1_0000_0000_0000 := by
  have := a.toNat_lt
  have := b.toNat_lt
  have := c.toNat_lt
  have := d.toNat_lt
  have := e.toNat_lt
  have := f.toNat_lt
  simp only [bigEndian, List.foldl]
  omega

/-- The six octets of an authority, the greatest part first. -/
def authorityOctets (n : Nat) : Octets :=
  [40, 32, 24, 16, 8, 0].map fun shift => UInt8.ofNat (n >>> shift)

/-- The four octets of a sub-authority, the least part first. -/
def subOctets (n : UInt32) : Octets :=
  [0, 8, 16, 24].map fun shift => UInt8.ofNat (n.toNat >>> shift)

/-- The sub-authorities of octets taken four by four. -/
def subsOfOctets : Octets → List UInt32
  | a :: b :: c :: d :: rest =>
    UInt32.ofNat (a.toNat + 256 * b.toNat + 65536 * c.toNat + 16777216 * d.toNat)
      :: subsOfOctets rest
  | _ => []

/-- Four octets make one sub-authority. -/
theorem length_subsOfOctets (bs : Octets) : (subsOfOctets bs).length = bs.length / 4 := by
  fun_induction subsOfOctets bs with
  | case1 a b c d rest ih => simp [ih]; omega
  | case2 s h =>
    match s, h with
    | [], _ => rfl
    | [_], _ => simp
    | [_, _], _ => simp
    | [_, _, _], _ => simp
    | a :: b :: c :: d :: r, h => exact absurd rfl (h a b c d r)

/-- The identifier of its stored form: revision, count, authority and that many
sub-authorities. -/
def ofOctets (bs : Octets) : Except SidFault Sid :=
  match bs with
  | revision :: count :: a :: b :: c :: d :: e :: f :: rest =>
    if h : rest.length = 4 * count.toNat then
      .ok
        { revision
          authority := bigEndian [a, b, c, d, e, f]
          subAuthorities := subsOfOctets rest
          authority_lt := bigEndian_lt a b c d e f
          length_lt := by
            have := count.toNat_lt
            rw [length_subsOfOctets, h]
            omega }
    else .error .wrongLength
  | _ => .error .shortHeader

/-- The stored form. -/
def octets (s : Sid) : Octets :=
  s.revision :: UInt8.ofNat s.subAuthorities.length :: authorityOctets s.authority
    ++ s.subAuthorities.flatMap subOctets

/-! ### Written form -/

/-- The written form: every number in its canonical digits. -/
def text (s : Sid) : String :=
  String.ofList <|
    'S' :: '-' :: digits s.revision.toNat ++ '-' :: digits s.authority
      ++ s.subAuthorities.flatMap fun n => '-' :: digits n.toNat

/-- The parts of a text between hyphens. -/
def parts (s : List Char) : List (List Char) :=
  s.splitOn '-'

/-- The identifier that a text denotes, blanks around it allowed. The first letter may be of
either case, and every number may have a plus sign and leading zeros. -/
def ofText? (s : String) : Option Sid :=
  match parts (Text.trim s.toList) with
  | mark :: revision :: authority :: subs =>
    if Text.eqIgnoringAsciiCase mark ['S'] then do
      let revision ← readNatBelow? 256 revision
      let authority ← readNatBelow? 0x1_0000_0000_0000 authority
      let subs ← subs.mapM (readNatBelow? 0x1_0000_0000)
      if h : authority < 0x1_0000_0000_0000 ∧ subs.length < 256 then
        some
          { revision := UInt8.ofNat revision
            authority
            subAuthorities := subs.map UInt32.ofNat
            authority_lt := h.1
            length_lt := by simpa using h.2 }
      else none
    else none
  | _ => none

end Sid

end DirectoryLens
