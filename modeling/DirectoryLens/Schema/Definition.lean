/-
Schemas as they are kept in files.

* `SchemaDefinition`: what a file says about one type of object;
* `SchemaDefinition.scopingFilter`: what every object of the type satisfies;
* `SchemaDefinition.toSchema`: the schema of a definition, if it is usable;
* `SchemaDefinition.json`, `SchemaDefinition.ofJson?`: definitions as JSON and back.
-/
import DirectoryLens.Expression.Builder
import DirectoryLens.Schema.Basic

namespace DirectoryLens

/-- What is said about one type of object. -/
structure SchemaDefinition where
  schemaName : String
  objectType : String
  /-- The classes that an object may be of. -/
  objectClass : List String
  objectCategory : Option String
  attributes : OrderedMap String
  converters : OrderedMap String
  select : List String
  required : List String
  defaults : OrderedMap Value
  repository : Option String
  rdn : List String
  baseDn : Option String
  scope : Option Scope
  pageSize : Option UInt32

namespace SchemaDefinition

/-- A definition that says nothing beyond its names. -/
def ofNames (schemaName objectType : String) : SchemaDefinition :=
  { schemaName, objectType, objectClass := [], objectCategory := none, attributes := .empty,
    converters := .empty, select := [], required := [], defaults := .empty, repository := none,
    rdn := [], baseDn := none, scope := none, pageSize := none }

/-! ### Schemas -/

/-- The filter for the object classes. -/
def classFilter (d : SchemaDefinition) : Option Expression :=
  if d.objectClass.isEmpty then none else some (Expression.classes d.objectClass)

/-- The filter for the object category. -/
def categoryFilter (d : SchemaDefinition) : Option Expression :=
  d.objectCategory.map fun name => Expression.eq "objectCategory" (.string name)

/-- What every object of the type satisfies: its category, and one of its classes. -/
def scopingFilter (d : SchemaDefinition) : Option Expression :=
  match d.categoryFilter, d.classFilter with
  | some category, some classes => some (Expression.all [category, classes])
  | category, classes => classes.or category

/-- The schema of a definition. Its own name and that of its objects may not be blank, nor may its
page size be zero. -/
def toSchema (d : SchemaDefinition) : Except QueryError ObjectSchema :=
  let isBlank (s : String) : Bool := (Text.trim s.toList).isEmpty
  if isBlank d.schemaName || isBlank d.objectType then
    .error (.invalidConfiguration .unnamedSchema)
  else if d.pageSize = some 0 then
    .error (.invalidConfiguration (.schemaPageSize (d.schemaName ++ "/" ++ d.objectType)))
  else
    .ok
      { schemaName := d.schemaName, objectType := d.objectType, attributes := d.attributes,
        converters := d.converters, select := d.select, required := d.required,
        defaults := d.defaults, repository := d.repository, rdn := d.rdn, baseDn := d.baseDn,
        scope := d.scope, pageSize := d.pageSize, filter := d.scopingFilter }

/-! ### JSON -/

/-- A map as JSON. -/
def mapJson {α : Type} (f : α → Json) (m : OrderedMap α) : Json :=
  Json.record (m.toList.map fun p => (p.1, f p.2))

/-- A list of texts as JSON. -/
def textsJson (texts : List String) : Json :=
  Json.ofList Json.ofString texts

/-- A definition as JSON. Empty lists and defaults are left out, and so is what is absent; the
maps of attributes and converters are always given. -/
def json (d : SchemaDefinition) : Json :=
  let texts (name : String) (ts : List String) : List (String × Json) :=
    if ts.isEmpty then [] else [(name, textsJson ts)]
  let maybe (name : String) (j : Option Json) : List (String × Json) :=
    j.toList.map fun j => (name, j)
  Json.record <|
    [("schema_name", Json.ofString d.schemaName), ("object_type", Json.ofString d.objectType)]
      ++ texts "object_class" d.objectClass
      ++ maybe "object_category" (d.objectCategory.map Json.ofString)
      ++ [("attributes", mapJson Json.ofString d.attributes),
          ("converters", mapJson Json.ofString d.converters)]
      ++ texts "attributes_to_select" d.select
      ++ texts "required_attributes" d.required
      ++ (if d.defaults.toList.isEmpty then [] else
          [("default_values", mapJson Value.json d.defaults)])
      ++ maybe "repository" (d.repository.map Json.ofString)
      ++ texts "rdn" d.rdn
      ++ maybe "base_dn" (d.baseDn.map Json.ofString)
      ++ maybe "scope" (d.scope.map Scope.json)
      ++ maybe "page_size" (d.pageSize.map Config.pageSizeJson)

/-- The names of the fields of a definition, in their order. -/
def fieldNames : List String :=
  ["schema_name", "object_type", "object_class", "object_category", "attributes", "converters",
   "attributes_to_select", "required_attributes", "default_values", "repository", "rdn",
   "base_dn", "scope", "page_size"]

/-- A map that a JSON value stands for. -/
def mapOfJson? {α : Type} (f : Json → Option α) (j : Json) : Option (OrderedMap α) :=
  (j.asMap? f).map OrderedMap.ofList

/-- The definition that a JSON value stands for. The names of the schema and its objects have to be
given. Default values lie in two containers already. -/
def ofJson? (j : Json) : Option SchemaDefinition := do
  match ← j.fields? fieldNames with
  | [schemaName, objectType, objectClass, objectCategory, attributes, converters, select, required,
      defaults, repository, rdn, baseDn, scope, pageSize] =>
    let texts (f : Option Json) : Option (List String) := Json.field? Json.asTexts? [] f
    let text (f : Option Json) : Option (Option String) :=
      Json.field? (Json.asNullable? Json.asText?) none f
    return { schemaName := ← (← schemaName).asText?
             objectType := ← (← objectType).asText?
             objectClass := ← texts objectClass
             objectCategory := ← text objectCategory
             attributes := ← Json.field? (mapOfJson? Json.asText?) .empty attributes
             converters := ← Json.field? (mapOfJson? Json.asText?) .empty converters
             select := ← texts select
             required := ← texts required
             defaults :=
               ← Json.field? (mapOfJson? (Value.ofJson? (Value.maxDepth - 2))) .empty defaults
             repository := ← text repository
             rdn := ← texts rdn
             baseDn := ← text baseDn
             scope := ← Json.field? (Json.asNullable? Scope.ofJson?) none scope
             pageSize :=
               ← Json.field? (Json.asNullable? Config.pageSizeOfJson?) none pageSize }
  | _ => none

end SchemaDefinition

end DirectoryLens
