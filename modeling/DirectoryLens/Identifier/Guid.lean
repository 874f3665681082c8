/-
Globally unique identifiers.

* `Guid`: sixteen octets, in the order in which their text names them;
* `Guid.ofText?`: the four written forms;
* `Guid.text`: the canonical form, lower-case with hyphens;
* `Guid.ofMixed?`, `Guid.mixed`: the order in which a directory stores the octets, the first three
  groups reversed;
* `Guid.ofMixed?_mixed`: what is stored is read back.
-/
import DirectoryLens.Octets
import DirectoryLens.Text.Blank

namespace DirectoryLens

/-- A globally unique identifier: sixteen octets in the order of its text. -/
structure Guid where
  octets : Octets
  length_eq : octets.length = 16
  deriving DecidableEq

namespace Guid

/-- The identifier of sixteen octets. -/
def ofOctets? (bs : Octets) : Option Guid :=
  if h : bs.length = 16 then some ⟨bs, h⟩ else none

/-! ### Text -/

/-- The lengths of the groups of digits between hyphens. -/
def groups : List Nat := [8, 4, 4, 4, 12]

/-- A text cut into groups of the given lengths, a hyphen before each but the first. -/
def ungroup? : List Nat → List Char → Option (List Char)
  | [], [] => some []
  | [], _ :: _ => none
  | n :: rest, s =>
    if s.length < n then none
    else match rest, s.drop n with
      | [], [] => some (s.take n)
      | _ :: _, '-' :: s' => (ungroup? rest s').map (s.take n ++ ·)
      | _, _ => none

/-- Digits cut into groups of the given lengths, with hyphens between them. -/
def grouped : List Nat → List Char → List Char
  | [], s => s
  | [_], s => s
  | n :: rest, s => s.take n ++ '-' :: grouped rest (s.drop n)

/-- The mark before the hyphenated form of a name, matched in any case. -/
def nameMark : List Char := "urn:uuid:".toList

/-- The hyphenated form within a text: the text itself, what its braces hold, or what stands
behind the mark of a name. -/
def hyphenated (s : List Char) : List Char :=
  if s.length = 38 && s.head? = some '\x7b' && s.getLast? = some '\x7d' then (s.drop 1).dropLast
  else if s.length = 45 && Text.eqIgnoringAsciiCase (s.take 9) nameMark then s.drop 9
  else s

/-- The identifier that a text denotes: thirty-two digits, or their groups with hyphens, bare, in
braces or behind the mark of a name. Digits may be of either case. -/
def ofChars? (s : List Char) : Option Guid :=
  if s.length = 32 then (Octets.ofHexChars? s).bind ofOctets?
  else ((ungroup? groups (hyphenated s)).bind Octets.ofHexChars?).bind ofOctets?

/-- The identifier that a text denotes, blanks around it allowed. -/
def ofText? (s : String) : Option Guid :=
  ofChars? (Text.trim s.toList)

/-- The canonical text: lower-case digits in groups with hyphens. -/
def text (g : Guid) : String :=
  String.ofList (grouped groups (Octets.hexChars g.octets))

/-! ### Stored order -/

/-- Octets with the first four, the next two and the next two reversed. -/
def swap (bs : Octets) : Octets :=
  (bs.take 4).reverse ++ ((bs.drop 4).take 2).reverse ++ ((bs.drop 6).take 2).reverse ++ bs.drop 8

/-- Reversing the groups keeps the number of octets. -/
@[simp] theorem length_swap (bs : Octets) : (swap bs).length = bs.length := by
  simp [swap]; omega

/-- The octets in the order in which a directory stores them. -/
def mixed (g : Guid) : Octets :=
  swap g.octets

/-- The identifier that a directory stores as the given octets. -/
def ofMixed? (bs : Octets) : Option Guid :=
  ofOctets? (swap bs)

/-- Reversing the groups of sixteen octets twice changes nothing. -/
theorem swap_swap {bs : Octets} (h : bs.length = 16) : swap (swap bs) = bs := by
  match bs, h with
  | [_, _, _, _, _, _, _, _, _, _, _, _, _, _, _, _], _ => rfl

/-- What is stored is read back. -/
@[simp] theorem ofMixed?_mixed (g : Guid) : ofMixed? g.mixed = some g := by
  rw [ofMixed?, mixed, swap_swap g.length_eq, ofOctets?, dif_pos g.length_eq]

end Guid

end DirectoryLens
