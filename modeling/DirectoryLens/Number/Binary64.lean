/-
Doubles as their words, and the rounding of fractions to them.

* `Binary64`: a double, given by its sixty-four bits;
* `Binary64.view`: what a word stands for, a finite one as sign, significand and power of two;
* `roundDiv`: a quotient rounded to the nearest whole number, halves to even;
* `nearestWord`: the word nearest to a fraction;
* `scaleByTen?`: a significand scaled by a power of ten, each step rounded.
-/

namespace DirectoryLens

/-- A double, given by its bits. -/
structure Binary64 where
  bits : UInt64
  deriving DecidableEq

namespace Binary64

/-! ### What a word stands for -/

/-- What a double is: not a number, an infinity, or `significand * 2 ^ exponent` under a sign. -/
inductive View
  | nan
  | infinite (negative : Bool)
  | finite (negative : Bool) (significand : Nat) (exponent : Int)
  deriving DecidableEq

/-- The number of values of the fraction field. -/
def fractionSize : Nat := 0x10_0000_0000_0000

/-- The number of words without a sign. -/
def signSize : Nat := 0x8000_0000_0000_0000

/-- The word of positive infinity; a greater one without its sign is not a number. -/
def infinityWord : Nat := 2047 * fractionSize

/-- The significand and the power of two of a finite word without its sign. -/
def magnitude (word : Nat) : Nat × Int :=
  if word < fractionSize then (word, -1074)
  else (fractionSize + word % fractionSize, (word / fractionSize : Nat) - 1075)

/-- What a double stands for. -/
def view (x : Binary64) : View :=
  let word := x.bits.toNat % signSize
  let negative := signSize ≤ x.bits.toNat
  if infinityWord < word then .nan
  else if word = infinityWord then .infinite negative
  else .finite negative (magnitude word).1 (magnitude word).2

/-- The double of a word without sign, under a sign. -/
def ofWord (negative : Bool) (word : Nat) : Binary64 :=
  ⟨UInt64.ofNat (if negative then signSize + word else word)⟩

/-! ### Rounding -/

/-- The whole number nearest to a quotient, a half going to the even neighbour. -/
def roundDiv (num den : Nat) : Nat :=
  let q := num / den
  let r := num % den
  if 2 * r < den then q
  else if den < 2 * r then q + 1
  else q + q % 2

/-- A fraction divided by a power of two, as numerator and denominator. -/
def shiftDown (num den : Nat) (e : Int) : Nat × Nat :=
  (num <<< (-e).toNat, den <<< e.toNat)

/-- The least power of two that leaves the fraction's whole part below twice the fraction field's
size, and no less than the least power of the format. -/
def unitExponent (num den : Nat) : Int :=
  let e := max (-1074) ((num.log2 : Int) - den.log2 - 53)
  let (n, d) := shiftDown num den e
  if n / d < 2 * fractionSize then e else e + 1

/-- The word of the double nearest to a fraction, a half going to the even word. A fraction
beyond the greatest double rounds to infinity. -/
def nearestWord (num den : Nat) : Nat :=
  if num = 0 then 0
  else
    let e := unitExponent num den
    let (n, d) := shiftDown num den e
    min infinityWord ((e + 1074).toNat * fractionSize + roundDiv n d)

/-- The word nearest to the product of two finite words. -/
def mulWord (a b : Nat) : Nat :=
  let (m, e) := magnitude a
  let (n, f) := magnitude b
  let (num, den) := shiftDown (m * n) 1 (-(e + f))
  nearestWord num den

/-- The word nearest to the quotient of two finite words. -/
def divWord (a b : Nat) : Nat :=
  let (m, e) := magnitude a
  let (n, f) := magnitude b
  let (num, den) := shiftDown m n (f - e)
  nearestWord num den

/-- The word nearest to a power of ten. -/
def tenWord (k : Nat) : Nat :=
  nearestWord (Nat.pow 10 k) 1

/-- The greatest power of ten below infinity. -/
def maxTenPower : Nat := 308

/-- A word divided by a power of ten: by the greatest one until the rest of the power is no
greater, each quotient rounded. Zero stays zero. -/
def divTen (word : Nat) (k : Nat) : Nat :=
  if word = 0 then 0
  else if k ≤ maxTenPower then divWord word (tenWord k)
  else divTen (divWord word (tenWord maxTenPower)) (k - maxTenPower)
termination_by k
decreasing_by unfold maxTenPower at *; omega

/-- A significand times a power of ten. The significand is rounded to a double first, the product
or quotient with the rounded power of ten after it. Nothing stands for what rounds to infinity,
nor for a power of ten that does itself, unless the significand is zero. -/
def scaleByTen? (significand : Nat) (exponent : Int) : Option Nat :=
  let word := nearestWord significand 1
  if 0 ≤ exponent then
    if exponent ≤ maxTenPower then
      let product := mulWord word (tenWord exponent.toNat)
      if product < infinityWord then some product else none
    else if word = 0 then some 0 else none
  else some (divTen word (-exponent).toNat)

end Binary64

end DirectoryLens
