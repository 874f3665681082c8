/-
What a JSON value may be taken for.

* `Json.asText?`, `Json.asBool?`, `Json.asTexts?`: strings, booleans and lists of strings;
* `Json.Numeral`, `Json.asNumeral?`: a number as an integer or a double;
* `Json.asUnsigned?`, `Json.asOctets?`: bounded whole numbers and octets;
* `Json.fields?`: a record of named fields, given as an object or as an array in their order;
* `Json.asMap?`: an object whose names are free.
-/
import DirectoryLens.Json.Reader
import DirectoryLens.Number.Binary64

namespace DirectoryLens.Json

/-! ### Scalars -/

/-- The text of a string. -/
def asText? : Json → Option String
  | .string text => text
  | _ => none

/-- A boolean. -/
def asBool? : Json → Option Bool
  | .bool b => some b
  | _ => none

/-- What a number's text denotes. -/
inductive Numeral
  | integer (n : Int)
  | double (x : Binary64)
  deriving DecidableEq

/-- A number's text cut into its parts. -/
structure Lexeme where
  negative : Bool
  whole : List Char
  /-- The digits behind the point, when there is one. -/
  fraction : Option (List Char)
  /-- The power of ten, when there is one. -/
  power : Option Int

/-- The parts of a number's text. -/
def Lexeme.ofText (text : String) : Lexeme :=
  let s := text.toList
  let negative := s.head? == some '-'
  let s := if negative then s.drop 1 else s
  let behind := (s.dropWhile (· != 'e')).drop 1
  let s := s.takeWhile (· != 'e')
  let fraction := s.dropWhile (· != '.')
  { negative
    whole := s.takeWhile (· != '.')
    fraction := if fraction.isEmpty then none else some (fraction.drop 1)
    power := Number.readInt? behind }

/-- The greatest significand that is kept exactly. -/
def maxSignificand : Nat := 0xFFFF_FFFF_FFFF_FFFF

/-- Digits taken into a significand while it stays exact, with the number of those left over.
From the first digit that does not fit, all are left over. -/
def takeDigits (significand : Nat) : List Char → Nat × Nat
  | [] => (significand, 0)
  | c :: rest =>
    let next := 10 * significand + (c.toNat - 48)
    if next ≤ maxSignificand then takeDigits next rest else (significand, rest.length + 1)

/-- The significand and the power of ten of a number's text. Whole digits left over raise the
power; digits behind the point that are taken lower it. -/
def Lexeme.scaled (l : Lexeme) : Nat × Int :=
  let (m, excess) := takeDigits 0 l.whole
  let fraction := l.fraction.getD []
  let (m, left) := takeDigits m fraction
  (m, excess - (fraction.length - left : Nat) + l.power.getD 0)

/-- What a number's text denotes: an integer when it has neither point nor power and lies between
`-2 ^ 63` and `2 ^ 64`, minus zero apart; else a double. Nothing stands for a number beyond
the doubles. -/
def Lexeme.numeral? (l : Lexeme) : Option Numeral :=
  let n := Nat.ofDigitChars 10 l.whole 0
  if l.fraction.isNone && l.power.isNone && !l.negative && n < 0x1_0000_0000_0000_0000 then
    some (.integer n)
  else if l.fraction.isNone && l.power.isNone && l.negative && n ≤ 0x8000_0000_0000_0000
      && n ≠ 0 then
    some (.integer (-n))
  else
    let (m, e) := l.scaled
    (Binary64.scaleByTen? m e).map fun word => .double (Binary64.ofWord l.negative word)

/-- The number that a value denotes. -/
def asNumeral? : Json → Option Numeral
  | .number text => (Lexeme.ofText text).numeral?
  | _ => none

/-- A whole number below a bound. -/
def asUnsigned? (bound : Nat) (j : Json) : Option Nat :=
  match j.asNumeral? with
  | some (.integer n) => if 0 ≤ n && n < bound then some n.toNat else none
  | _ => none

/-! ### Containers -/

/-- The items of an array, each taken for something. -/
def asList? {α : Type} (f : Json → Option α) : Json → Option (List α)
  | .array items => items.mapM f
  | _ => none

/-- A list of strings. -/
def asTexts? (j : Json) : Option (List String) :=
  j.asList? asText?

/-- An array of whole numbers below 256. -/
def asOctets? (j : Json) : Option Octets :=
  j.asList? fun item => (item.asUnsigned? 256).map UInt8.ofNat

/-- A value that may be null, where it is given at all. -/
def asNullable? {α : Type} (f : Json → Option α) : Json → Option (Option α)
  | .null => some none
  | j => (f j).map some

/-- The members of an object whose names are free. -/
def asMap? {α : Type} (f : Json → Option α) : Json → Option (List (String × α))
  | .object members => members.mapM fun m => do return (← m.1, ← f m.2)
  | _ => none

/-- The member of a name; a second one of the same name is refused. -/
def member? (name : String) (members : List (Option String × Json)) : Option (Option Json) :=
  match members.filter (·.1 == some name) with
  | [] => some none
  | [m] => some (some m.2)
  | _ => none

/-- The fields of a record, in the order of their names, each absent or given. An object may hold
further members, which are passed over; an array gives the first fields and no more. -/
def fields? (names : List String) : Json → Option (List (Option Json))
  | .object members =>
    if members.all (·.1.isSome) then names.mapM fun name => member? name members else none
  | .array items =>
    if items.length ≤ names.length then
      some (items.map some ++ List.replicate (names.length - items.length) none)
    else none
  | _ => none

/-- A field with a value that stands for its absence. -/
def field? {α : Type} (f : Json → Option α) (absent : α) : Option Json → Option α
  | some j => f j
  | none => some absent

/-- The name of an alternative without contents: a string, or an object whose one member holds
null. -/
def asChoice? : Json → Option String
  | .string text => text
  | .object [(name, .null)] => name
  | _ => none

end DirectoryLens.Json
