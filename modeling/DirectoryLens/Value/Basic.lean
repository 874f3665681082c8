/-
Values as a program handles them, and raw values as a directory stores them.

* `Value`: a value of the program, single or several;
* `Value.Kind`: what sort of value it is, and its name;
* `RawValue`: a text or an octet string;
* `RawValue.octets`, `RawValue.text?`: the two views of a raw value;
* `RawValue.toValue`: the value of a raw value that nothing converts.
-/
import DirectoryLens.Number.Binary64
import DirectoryLens.Octets
import DirectoryLens.Time.Instant

namespace DirectoryLens

/-- A value of the program. -/
inductive Value
  | null
  | string (s : String)
  | integer (n : Int64)
  | boolean (b : Bool)
  | float (x : Binary64)
  | dateTime (t : Instant)
  | binary (bs : Octets)
  | array (vs : List Value)

/-- The sort of a value. -/
inductive Value.Kind
  | null
  | string
  | integer
  | boolean
  | float
  | dateTime
  | binary
  | array
  deriving DecidableEq

/-- The name of a sort of value, as messages give it. -/
def Value.Kind.name : Value.Kind → String
  | .null => "null"
  | .string => "string"
  | .integer => "integer"
  | .boolean => "boolean"
  | .float => "float"
  | .dateTime => "datetime"
  | .binary => "binary"
  | .array => "array"

namespace Value

/-- The sort of a value. -/
def kind : Value → Kind
  | .null => .null
  | .string _ => .string
  | .integer _ => .integer
  | .boolean _ => .boolean
  | .float _ => .float
  | .dateTime _ => .dateTime
  | .binary _ => .binary
  | .array _ => .array

/-- The value that several values make: one stands for itself. -/
def collapse : List Value → Value
  | [v] => v
  | vs => .array vs

end Value

/-- A value as the directory stores it. -/
inductive RawValue
  | text (s : String)
  | binary (bs : Octets)
  deriving DecidableEq

namespace RawValue

/-- The octets of a raw value. -/
def octets : RawValue → Octets
  | .text s => Octets.ofText s
  | .binary bs => bs

/-- The text of a raw value, where its octets are one. -/
def text? : RawValue → Option String
  | .text s => some s
  | .binary bs => Octets.toText? bs

/-- The value of a raw value that nothing converts. -/
def toValue : RawValue → Value
  | .text s => .string s
  | .binary bs => .binary bs

/-- A raw value whose octets are a text has that text. -/
@[simp] theorem text?_binary_ofText (s : String) :
    text? (.binary (Octets.ofText s)) = text? (.text s) :=
  Octets.toText?_ofText s

end RawValue

end DirectoryLens
