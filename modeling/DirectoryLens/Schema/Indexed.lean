/-
Schemas that keep tables for their lookups.

* `IndexedSchema`: a schema with a table for each way in which names are looked up;
* `IndexedSchema.setAttributes`, `setConverters`, `setDefaults`: a map is set, and its tables are
  filled again;
* `Declaration`, `IndexedSchema.declareAll`: maps set one after another;
* `IndexedSchema.ofSchema`: a schema with its tables;
* `IndexedSchema.directoryName`, `mappedName`, `namesMappedTo`, `converterFor`, `defaultValue`: the
  lookups of a schema, in the tables.
-/
import DirectoryLens.Schema.Basic

namespace DirectoryLens

open Text

/-- A schema with the tables that it keeps for its lookups. -/
structure IndexedSchema where
  schema : ObjectSchema
  /-- From a folded name to the directory name. -/
  targets : OrderedMap String
  /-- From a folded directory name to the names that lead to it. -/
  aliases : OrderedMap (List String)
  /-- From a folded name to the name of a converter. -/
  converters : OrderedMap String
  /-- From a folded name to the name as a default value is declared for it. -/
  defaultNames : OrderedMap String

/-- A map of a schema, set to the map of a list of pairs. -/
inductive Declaration
  | attributes (pairs : List (String × String))
  | converters (pairs : List (String × String))
  | defaults (pairs : List (String × Value))

namespace IndexedSchema

/-- A schema before any of its maps is set. -/
def bare (s : ObjectSchema) : IndexedSchema where
  schema := { s with attributes := .empty, converters := .empty, defaults := .empty }
  targets := .empty
  aliases := .empty
  converters := .empty
  defaultNames := .empty

/-! ### Declarations -/

/-- The tables with one more name and its directory name. -/
def enter (t : IndexedSchema) (p : String × String) : IndexedSchema :=
  let key := fold p.2
  { t with
    targets := t.targets.insert (fold p.1) p.2
    aliases := t.aliases.insert key ((t.aliases.get? key).getD [] ++ [p.1]) }

/-- The schema with other attribute names. Its tables are cleared, and filled from the new map. -/
def setAttributes (t : IndexedSchema) (pairs : List (String × String)) : IndexedSchema :=
  let schema := t.schema.setAttributes pairs
  schema.attributes.toList.foldl enter { t with schema, targets := .empty, aliases := .empty }

/-- The schema with other converters. -/
def setConverters (t : IndexedSchema) (pairs : List (String × String)) : IndexedSchema :=
  let schema := t.schema.setConverters pairs
  { t with schema, converters := ObjectSchema.foldedIndex schema.converters }

/-- The schema with other default values. Its table leads to their names, as they are declared. -/
def setDefaults (t : IndexedSchema) (pairs : List (String × Value)) : IndexedSchema :=
  let schema := t.schema.setDefaults pairs
  { t with
    schema
    defaultNames := ObjectSchema.foldedIndex ⟨schema.defaults.keys.map fun k => (k, k)⟩ }

/-- The schema after a declaration. -/
def declare (t : IndexedSchema) : Declaration → IndexedSchema
  | .attributes pairs => t.setAttributes pairs
  | .converters pairs => t.setConverters pairs
  | .defaults pairs => t.setDefaults pairs

/-- The schema after several declarations, one after another. -/
def declareAll (t : IndexedSchema) (ds : List Declaration) : IndexedSchema :=
  ds.foldl declare t

/-- A schema with the tables for its maps. -/
def ofSchema (s : ObjectSchema) : IndexedSchema :=
  (bare s).declareAll [.attributes s.attributes.toList, .converters s.converters.toList,
    .defaults s.defaults.toList]

/-! ### Lookups -/

/-- The directory name that a name is mapped to. -/
def directoryName? (t : IndexedSchema) (name : String) : Option String :=
  t.targets.get? (fold name)

/-- The directory name of a name; one that is not mapped stands for itself. -/
def directoryName (t : IndexedSchema) (name : String) : String :=
  (t.directoryName? name).getD name

/-- The directory name of a name; one that is not mapped is refused. -/
def mappedName (t : IndexedSchema) (name : String) : Except QueryError String :=
  match t.directoryName? name with
  | some d => .ok d
  | none => .error (.unmappedAttribute name t.schema.id)

/-- A name is mapped. -/
def hasAttribute (t : IndexedSchema) (name : String) : Bool :=
  (t.directoryName? name).isSome

/-- The names that are mapped to a directory name, in the order of their declaration. -/
def namesMappedTo (t : IndexedSchema) (directoryName : String) : List String :=
  (t.aliases.get? (fold directoryName)).getD []

/-- The converter declared for a name. -/
def converterFor (t : IndexedSchema) (name : String) : Option String :=
  t.converters.get? (fold name)

/-- The default value declared for a name. -/
def defaultValue (t : IndexedSchema) (name : String) : Option Value :=
  (t.defaultNames.get? (fold name)).bind t.schema.defaults.get?

end IndexedSchema

end DirectoryLens
