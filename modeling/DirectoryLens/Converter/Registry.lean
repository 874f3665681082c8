/-
The table of converters by name.

* `Registry`: converters under names that differ beyond their case, in the order in which they
  came;
* `Registry.register`: a converter under a new name;
* `Registry.get`: the converter of a name, in any case;
* `Registry.builtin`: the converters that are always there.
-/
import DirectoryLens.Converter.Identity
import DirectoryLens.Converter.Moment
import DirectoryLens.Converter.Scalar
import DirectoryLens.OrderedMap
import DirectoryLens.Text.Fold

namespace DirectoryLens

/-- A table of converters. Each folded name leads to the name as it was given and the
converter. -/
structure Registry where
  entries : OrderedMap (String × Converter)

namespace Registry

/-- A name that a converter may have: a letter, then letters, digits and underscores. -/
def isName (s : String) : Bool :=
  match s.toList with
  | c :: rest => c.isAlpha && rest.all fun d => d.isAlphanum || d = '_'
  | [] => false

/-- What names are to be like. -/
def nameRule : String :=
  "converter names must start with a letter and contain only letters, digits and underscores"

/-- The table without converters. -/
def empty : Registry :=
  ⟨.empty⟩

/-- A name is taken. -/
def contains (r : Registry) (name : String) : Bool :=
  r.entries.contains (Text.fold name)

/-- The table with a converter under a new name. What is no name is refused, and then a name that
is taken. -/
def register (r : Registry) (name : String) (c : Converter) : Except QueryError Registry :=
  if !isName name then .error (.invalidConverter name nameRule)
  else if r.contains name then .error (.converterAlreadyRegistered name)
  else .ok ⟨r.entries.insert (Text.fold name) (name, c)⟩

/-- The converter of a name. -/
def get (r : Registry) (name : String) : Except QueryError Converter :=
  match r.entries.get? (Text.fold name) with
  | some (_, c) => .ok c
  | none => .error (.unknownConverter name)

/-- The names as they were given, in the order in which they came. -/
def names (r : Registry) : List String :=
  r.entries.toList.map (·.2.1)

/-- The number of converters. -/
def size (r : Registry) : Nat :=
  r.entries.size

/-- The stored form of a value, by the converter of a name. -/
def toDirectory (r : Registry) (name : String) (v : Value) : Except QueryError RawValue := do
  (← r.get name).toDirectory v

/-- The value of a stored form, by the converter of a name. -/
def fromDirectory (r : Registry) (name : String) (raw : RawValue) : Except QueryError Value := do
  (← r.get name).fromDirectory raw

/-! ### Built-in converters -/

/-- The bits of an account's control word that have a converter, by its name. -/
def accountFlags : List (String × UInt32) :=
  [("uac_disabled", 0x2), ("uac_locked", 0x10), ("uac_password_not_required", 0x20),
   ("uac_password_never_expires", 0x10000), ("uac_smartcard_required", 0x40000),
   ("uac_trusted_for_delegation", 0x80000)]

/-- The converters that are always there. -/
def builtinConverters : List (String × Converter) :=
  [("bool", .boolean), ("int", .integer), ("generalized_time", .generalizedTime),
   ("windows_time", .fileTime), ("windows_generalized_time", .markedGeneralizedTime),
   ("windows_guid", .guid), ("windows_sid", .sid)]
    ++ accountFlags.map fun f => (f.1, .flag f.1 f.2)

/-- The table of the converters that are always there. -/
def builtin : Registry :=
  ⟨.ofList (builtinConverters.map fun c => (Text.fold c.1, c))⟩

/-- The table as text: the names between quotes. -/
def description (r : Registry) : String :=
  "ConverterRegistry \x7b converters: ["
    ++ ", ".intercalate (r.names.map fun name => "\"" ++ name ++ "\"") ++ "] \x7d"

end Registry

end DirectoryLens
