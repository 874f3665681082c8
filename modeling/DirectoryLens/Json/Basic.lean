/-
JSON values as they are written: members in order, numbers as their text.

* `Json`: a JSON value;
* `Json.write`: its compact text;
* `Json.ofString`, `Json.ofInt`, `Json.ofOption`, `Json.record`: the values that records are built
  from;
* `Json.sortedRecord`: a record with its members in the order of their names.
-/
import DirectoryLens.Number.Decimal
import DirectoryLens.Octets

namespace DirectoryLens

/-- A JSON value. A number is its text. A string whose escapes name half of a surrogate pair has
no text. -/
inductive Json
  | null
  | bool (b : Bool)
  | number (lexeme : String)
  | string (text : Option String)
  | array (items : List Json)
  | object (members : List (Option String × Json))
  deriving Inhabited

namespace Json

/-! ### Building values -/

/-- The string of a text. -/
def ofString (s : String) : Json :=
  .string (some s)

/-- The number of an integer. -/
def ofInt (n : Int) : Json :=
  .number (Number.decimal n)

/-- A value that may be absent, null when it is. -/
def ofOption {α : Type} (f : α → Json) : Option α → Json
  | some a => f a
  | none => .null

/-- The array of the values of a list. -/
def ofList {α : Type} (f : α → Json) (as : List α) : Json :=
  .array (as.map f)

/-- A record with its members in the order given. -/
def record (members : List (String × Json)) : Json :=
  .object (members.map fun m => (some m.1, m.2))

/-- A record with its members in the order of their names. -/
def sortedRecord (members : List (String × Json)) : Json :=
  record (members.mergeSort fun a b => a.1 ≤ b.1)

/-! ### Writing -/

/-- A character inside a string: only the quote, the backslash and control characters are
escaped. -/
def escapedChar (c : Char) : List Char :=
  if c = '"' then ['\\', '"']
  else if c = '\\' then ['\\', '\\']
  else if 0x20 ≤ c.toNat then [c]
  else if c = '\x08' then ['\\', 'b']
  else if c = '\x0c' then ['\\', 'f']
  else if c = '\n' then ['\\', 'n']
  else if c = '\r' then ['\\', 'r']
  else if c = '\t' then ['\\', 't']
  else '\\' :: 'u' :: '0' :: '0' :: Octets.hexPair (UInt8.ofNat c.toNat)

/-- A text between quotes. -/
def quoted (s : String) : String :=
  String.ofList ('"' :: s.toList.flatMap escapedChar ++ ['"'])

mutual

/-- The compact text of a value. -/
def write : Json → String
  | .null => "null"
  | .bool b => if b then "true" else "false"
  | .number lexeme => lexeme
  | .string text => quoted (text.getD "")
  | .array items => "[" ++ ",".intercalate (writeItems items) ++ "]"
  | .object members => "\x7b" ++ ",".intercalate (writeMembers members) ++ "\x7d"

/-- The texts of the items of an array. -/
def writeItems : List Json → List String
  | [] => []
  | j :: rest => write j :: writeItems rest

/-- The texts of the members of an object. -/
def writeMembers : List (Option String × Json) → List String
  | [] => []
  | (name, j) :: rest => (quoted (name.getD "") ++ ":" ++ write j) :: writeMembers rest

end

end Json

end DirectoryLens
