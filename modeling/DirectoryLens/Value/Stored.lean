/-
The stored form of a value that nothing converts, and values as JSON.

* `Value.toRaw`: text for scalars, octets for binary values; null and several values have no
  single stored form;
* `Value.json`, `Value.ofJson?`: values as JSON and back, a date-time being written as a string
  and octets as an array of numbers;
* `RawValue.json`, `RawValue.ofJson?`: the same for raw values.
-/
import DirectoryLens.Error
import DirectoryLens.Json.Decode
import DirectoryLens.Number.Shortest
import DirectoryLens.Time.GeneralizedTime

namespace DirectoryLens

open Number

/-! ### Numbers in text -/

/-- Numbers in directory text have no power of ten, and nothing marks a whole one. Of two equally
near decimals the greater is taken. -/
def storedFloat : Layout :=
  { tie := .up
    positional := none
    wholeMark := ""
    nan := "NaN"
    infinity := "inf"
    negativeInfinity := "-inf" }

/-- Numbers in JSON are positional from a hundred-thousandth up to ten million thousand millions,
with a point in every one; what is no number is null. -/
def jsonFloat : Layout :=
  { tie := .toEven
    positional := some (-4, 16)
    wholeMark := ".0"
    nan := "null"
    infinity := "null"
    negativeInfinity := "null" }

/-! ### Stored form -/

namespace Value

/-- The text of a truth value. -/
def booleanText (b : Bool) : String :=
  if b then "TRUE" else "FALSE"

/-- The stored form of a single value. -/
def toRaw : Value → Except QueryError RawValue
  | .string s => .ok (.text s)
  | .integer n => .ok (.text (decimal n.toInt))
  | .float x => .ok (.text (storedFloat.write x))
  | .boolean b => .ok (.text (booleanText b))
  | .dateTime t => .ok (.text (t.generalizedTime "Z"))
  | .binary bs => .ok (.binary bs)
  | .null => .error (.invalidArgument (.noStoredForm .null))
  | .array _ => .error (.invalidArgument (.noStoredForm .array))

end Value

/-! ### JSON -/

/-- An array of the numbers of octets. -/
def Octets.json (bs : Octets) : Json :=
  Json.ofList (fun b => Json.ofInt b.toNat) bs

namespace Value

mutual

/-- A value as JSON. -/
def json : Value → Json
  | .null => .null
  | .string s => Json.ofString s
  | .integer n => Json.ofInt n.toInt
  | .boolean b => .bool b
  | .float x => .number (jsonFloat.write x)
  | .dateTime t => Json.ofString t.timestamp
  | .binary bs => bs.json
  | .array vs => .array (jsonList vs)

/-- Values as JSON, one by one. -/
def jsonList : List Value → List Json
  | [] => []
  | v :: vs => json v :: jsonList vs

end

/-- The greatest number of containers that a value may lie in, itself counted. -/
def maxDepth : Nat := 127

mutual

/-- The value that a JSON value stands for, nested at most so deep. Octets are taken before
several values; an integer beyond sixty-four bits is a double. -/
def ofJson? (depth : Nat) : Json → Option Value
  | .null => some .null
  | .bool b => some (.boolean b)
  | .string text => text.map .string
  | .number lexeme => match (Json.Lexeme.ofText lexeme).numeral? with
    | some (.integer n) => match int64? n with
      | some n => some (.integer n)
      | none => some (.float (Binary64.ofWord false (Binary64.nearestWord n.toNat 1)))
    | some (.double x) => some (.float x)
    | none => none
  | .array items => match depth with
    | 0 => none
    | depth + 1 => match (Json.array items).asOctets? with
      | some bs => some (.binary bs)
      | none => (ofJsonList? depth items).map .array
  | .object _ => none

/-- The values that JSON values stand for, one by one. -/
def ofJsonList? (depth : Nat) : List Json → Option (List Value)
  | [] => some []
  | j :: js => do return (← ofJson? depth j) :: (← ofJsonList? depth js)

end

end Value

namespace RawValue

/-- A raw value as JSON. -/
def json : RawValue → Json
  | .text s => Json.ofString s
  | .binary bs => bs.json

/-- The raw value that a JSON value stands for. -/
def ofJson? : Json → Option RawValue
  | .string s => s.map .text
  | j => j.asOctets?.map .binary

end RawValue

end DirectoryLens
