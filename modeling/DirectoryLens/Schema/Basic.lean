/-
Object schemas: how the objects of one type are described in a program's words.

* `ObjectSchema`: the maps from the program's names to directory names, converters and default
  values, and how searches for the type are scoped;
* `ObjectSchema.directoryName`, `directoryName?`: from the program's names to the directory's;
* `ObjectSchema.namesMappedTo`: the names that a directory name stands for;
* `ObjectSchema.converterFor`, `defaultValue`: what is declared for a name;
* `ObjectSchema.directoryNames`: the directory names of several names, each once.

Names are compared folded. Of several declared names that fold alike the last one counts.
-/
import DirectoryLens.Expression.Basic
import DirectoryLens.OrderedMap
import DirectoryLens.Search.Config
import DirectoryLens.Text.Fold

namespace DirectoryLens

/-- The description of one type of object. -/
structure ObjectSchema where
  schemaName : String
  objectType : String
  /-- From a program's name to the directory's. -/
  attributes : OrderedMap String
  /-- From a program's name to that of a converter. -/
  converters : OrderedMap String
  /-- The names that are asked for unless others are. -/
  select : List String
  required : List String
  /-- The values of names that an entry does not carry. -/
  defaults : OrderedMap Value
  repository : Option String
  rdn : List String
  baseDn : Option String
  scope : Option Scope
  pageSize : Option UInt32
  /-- What every object of the type satisfies. -/
  filter : Option Expression

namespace ObjectSchema

/-- A schema that describes nothing. -/
def ofNames (schemaName objectType : String) : ObjectSchema :=
  { schemaName, objectType, attributes := .empty, converters := .empty, select := [],
    required := [], defaults := .empty, repository := none, rdn := [], baseDn := none,
    scope := none, pageSize := none, filter := none }

/-- The name of a schema, with that of its objects. -/
def id (s : ObjectSchema) : String :=
  s.schemaName ++ "/" ++ s.objectType

/-! ### Declarations -/

/-- The schema with other attribute names. -/
def setAttributes (s : ObjectSchema) (pairs : List (String × String)) : ObjectSchema :=
  { s with attributes := .ofList pairs }

/-- The schema with other converters. -/
def setConverters (s : ObjectSchema) (pairs : List (String × String)) : ObjectSchema :=
  { s with converters := .ofList pairs }

/-- The schema with other default values. -/
def setDefaults (s : ObjectSchema) (pairs : List (String × Value)) : ObjectSchema :=
  { s with defaults := .ofList pairs }

/-! ### Lookups -/

/-- What a map declares, under its folded names. -/
def foldedIndex {α : Type} (m : OrderedMap α) : OrderedMap α :=
  m.toList.foldl (fun index p => index.insert (Text.fold p.1) p.2) .empty

/-- The names that lead to each folded directory name, in the order of their declaration. -/
def aliasIndex (m : OrderedMap String) : OrderedMap (List String) :=
  m.toList.foldl (fun index p =>
    let key := Text.fold p.2
    index.insert key ((index.get? key).getD [] ++ [p.1])) .empty

/-- The directory name that a name is mapped to. -/
def directoryName? (s : ObjectSchema) (name : String) : Option String :=
  (foldedIndex s.attributes).get? (Text.fold name)

/-- The directory name of a name; one that is not mapped stands for itself. -/
def directoryName (s : ObjectSchema) (name : String) : String :=
  (s.directoryName? name).getD name

/-- The directory name of a name; one that is not mapped is refused. -/
def mappedName (s : ObjectSchema) (name : String) : Except QueryError String :=
  match s.directoryName? name with
  | some d => .ok d
  | none => .error (.unmappedAttribute name s.id)

/-- A name is mapped. -/
def hasAttribute (s : ObjectSchema) (name : String) : Bool :=
  (s.directoryName? name).isSome

/-- The names that are mapped to a directory name, in the order of their declaration. -/
def namesMappedTo (s : ObjectSchema) (directoryName : String) : List String :=
  ((aliasIndex s.attributes).get? (Text.fold directoryName)).getD []

/-- The converter declared for a name. -/
def converterFor (s : ObjectSchema) (name : String) : Option String :=
  (foldedIndex s.converters).get? (Text.fold name)

/-- The default value declared for a name. -/
def defaultValue (s : ObjectSchema) (name : String) : Option Value :=
  (foldedIndex s.defaults).get? (Text.fold name)

/-- The directory names of several names, in the order of the names that first lead to them. -/
def directoryNames (s : ObjectSchema) (names : List String) : List String :=
  names.foldl (fun found name =>
    let d := s.directoryName name
    if found.any fun f => Text.fold f == Text.fold d then found else found ++ [d]) []

end ObjectSchema

end DirectoryLens
