/-
The shortest decimal text that reads back as a double.

* `Tie`: which neighbour is taken where two shortest decimals are equally near;
* `shortest`: the digits and the place of the point of a finite word;
* `Layout`: where positional notation ends, what marks a whole number, how the values that are
  not finite are written;
* `Layout.write`: the text of a double.
-/
import DirectoryLens.Number.Binary64
import DirectoryLens.Number.Decimal

namespace DirectoryLens.Number

/-- Which of two equally near decimals is taken. -/
inductive Tie
  | toEven
  | up
  deriving DecidableEq

/-! ### Digits -/

/-- The reals that round to a finite word other than zero: a value and its two bounds over one
denominator. -/
structure Rounding where
  value : Nat
  low : Nat
  high : Nat
  den : Nat
  /-- The bounds themselves round to the word. -/
  closed : Bool

/-- What rounds to a word: half the gap on either side. Below a power of two the gap is half as
wide, and the bounds belong to the word when its significand is even. -/
def Rounding.ofWord (word : Nat) : Rounding :=
  let (m, e) := Binary64.magnitude word
  let unit := 1 <<< (e - 2).toNat
  let below := if m = Binary64.fractionSize && Binary64.fractionSize < word then 1 else 2
  { value := 4 * m * unit
    low := (4 * m - below) * unit
    high := (4 * m + 2) * unit
    den := 1 <<< (2 - e).toNat
    closed := m % 2 == 0 }

/-- The number of decimal digits before the point, negative by the zeros that follow it. -/
def Rounding.point (r : Rounding) : Int :=
  if r.den ≤ r.value then (digits (r.value / r.den)).length
  else 1 - (digits ((r.den + r.value - 1) / r.value - 1)).length

/-- The decimal `c * 10 ^ scale` rounds to the word. -/
def Rounding.contains (r : Rounding) (c : Nat) (scale : Int) : Bool :=
  let here := c * r.den * Nat.pow 10 scale.toNat
  let factor := Nat.pow 10 (-scale).toNat
  if r.closed then r.low * factor ≤ here && here ≤ r.high * factor
  else r.low * factor < here && here < r.high * factor

/-- The nearer of the value's two neighbours among the multiples of `10 ^ scale` that round to
the word. -/
def Rounding.pick? (r : Rounding) (tie : Tie) (scale : Int) : Option Nat :=
  let num := r.value * Nat.pow 10 (-scale).toNat
  let den := r.den * Nat.pow 10 scale.toNat
  let c := num / den
  match r.contains c scale, r.contains (c + 1) scale with
  | false, false => none
  | true, false => some c
  | false, true => some (c + 1)
  | true, true =>
    let rest := num % den
    if 2 * rest < den then some c
    else if den < 2 * rest then some (c + 1)
    else match tie with
      | .toEven => some (c + c % 2)
      | .up => some (c + 1)

/-- The decimals of up to seventeen digits, fewest first, that round to the word. -/
def Rounding.candidates (r : Rounding) (tie : Tie) : List (Nat × Int) :=
  (List.range 17).filterMap fun n =>
    let scale := r.point - (n + 1 : Nat)
    (r.pick? tie scale).map fun c => (c, scale)

/-- The fewest digits that read back as a word other than zero, and the power of ten that the
point before them stands for. -/
def shortest (tie : Tie) (word : Nat) : List Char × Int :=
  match ((Rounding.ofWord word).candidates tie).head? with
  | some (c, scale) =>
    let ds := digits c
    ((ds.reverse.dropWhile (· == '0')).reverse, scale + ds.length)
  | none => (['0'], 1)

/-! ### Layout -/

/-- How a double is written. -/
structure Layout where
  /-- The choice between equally near decimals. -/
  tie : Tie
  /-- The places of the point, least and greatest, for which positional notation is used;
  everywhere when absent. -/
  positional : Option (Int × Int)
  /-- What follows a whole number in positional notation. -/
  wholeMark : String
  /-- Not a number. -/
  nan : String
  /-- Positive infinity. -/
  infinity : String
  /-- Negative infinity. -/
  negativeInfinity : String

/-- Digits with the point at its place, zeros filling the gap between them. -/
def Layout.positionalChars (l : Layout) (ds : List Char) (point : Int) : List Char :=
  if point ≤ 0 then '0' :: '.' :: List.replicate (-point).toNat '0' ++ ds
  else if (ds.length : Int) ≤ point then
    ds ++ List.replicate (point.toNat - ds.length) '0' ++ l.wholeMark.toList
  else ds.take point.toNat ++ '.' :: ds.drop point.toNat

/-- One digit before the point, and the power of ten under a sign. -/
def scientificChars (ds : List Char) (point : Int) : List Char :=
  let e := point - 1
  let fraction := if ds.length ≤ 1 then [] else '.' :: ds.drop 1
  ds.take 1 ++ fraction ++ 'e' :: (if e < 0 then '-' else '+') :: digits e.natAbs

/-- A finite word without its sign. -/
def Layout.magnitudeChars (l : Layout) (word : Nat) : List Char :=
  if word = 0 then '0' :: l.wholeMark.toList
  else
    let (ds, point) := shortest l.tie word
    match l.positional with
    | none => l.positionalChars ds point
    | some (least, greatest) =>
      if least ≤ point && point ≤ greatest then l.positionalChars ds point
      else scientificChars ds point

/-- The text of a double. -/
def Layout.write (l : Layout) (x : Binary64) : String :=
  match x.view with
  | .nan => l.nan
  | .infinite true => l.negativeInfinity
  | .infinite false => l.infinity
  | .finite negative _ _ =>
    let body := l.magnitudeChars (x.bits.toNat % Binary64.signSize)
    String.ofList (if negative then '-' :: body else body)

end DirectoryLens.Number
