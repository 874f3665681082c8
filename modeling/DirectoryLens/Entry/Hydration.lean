/-
Hydration: directory entries in a program's words and values.

* `HydratedEntry`: a distinguished name, and values under the names that were asked for;
* `Projection`: the names that are asked for, and those that have been found;
* `Hydrator`: converters, a schema and a selection;
* `Hydrator.hydrate`, `Hydrator.hydrateAll`: entries hydrated.
-/
import DirectoryLens.Converter.Registry
import DirectoryLens.Entry.Basic
import DirectoryLens.Schema.Basic

namespace DirectoryLens

/-- A hydrated entry. -/
structure HydratedEntry where
  dn : Option String
  attributes : OrderedMap Value

namespace HydratedEntry

/-- The value under a key. -/
def get? (h : HydratedEntry) (name : String) : Option Value :=
  h.attributes.get? name

/-- The value under the first key that folds like a name. -/
def getFolded? (h : HydratedEntry) (name : String) : Option Value :=
  (h.attributes.toList.find? fun p => Text.fold p.1 == Text.fold name).map (·.2)

/-- A hydrated entry as JSON, members in the order of their names. -/
def json (h : HydratedEntry) : Json :=
  let attributes := Json.sortedRecord (h.attributes.toList.map fun p => (p.1, p.2.json))
  Json.sortedRecord <|
    ("attributes", attributes) :: h.dn.toList.map fun dn => ("dn", Json.ofString dn)

end HydratedEntry

/-! ### Projections -/

/-- The names that are asked for, by their folded form, and the folded forms that have been
found. -/
structure Projection where
  wanted : OrderedMap String
  found : List String

namespace Projection

/-- The projection of a selection; of names that fold alike the first spelling is kept. -/
def ofSelection (selection : List String) : Projection :=
  { wanted := selection.foldl (fun m name =>
      if m.contains (Text.fold name) then m else m.insert (Text.fold name) name) .empty
    found := [] }

/-- The spelling in which a name is asked for, if it is and has not been found; it is found from
then on. -/
def claim (p : Projection) (name : String) : Option String × Projection :=
  let key := Text.fold name
  match p.wanted.get? key with
  | none => (none, p)
  | some requested =>
    if key ∈ p.found then (none, p) else (some requested, { p with found := key :: p.found })

/-- The names of a list that are claimed, each in the spelling in which it is asked for. -/
def claimAll (p : Projection) : List String → List String × Projection
  | [] => ([], p)
  | name :: names =>
    let (requested, p) := p.claim name
    let (rest, p) := p.claimAll names
    (requested.toList ++ rest, p)

/-- The names that have not been found. -/
def missing (p : Projection) : List String :=
  (p.wanted.toList.filter fun w => w.1 ∉ p.found).map (·.2)

end Projection

/-! ### Hydration -/

/-- What entries are hydrated with. -/
structure Hydrator where
  registry : Registry
  schema : Option ObjectSchema
  /-- The names asked for in place of those that the schema selects. -/
  selected : Option (List String)

namespace Hydrator

/-- The names that are asked for. -/
def selection (h : Hydrator) : List String :=
  match h.selected, h.schema with
  | some names, _ => names
  | none, some s => s.select
  | none, none => []

/-- The value of raw values that nothing converts. -/
def plain (values : List RawValue) : Value :=
  Value.collapse (values.map RawValue.toValue)

/-- An error that arose in a value of an attribute. -/
def underName (name : String) : QueryError → QueryError
  | .conversionFailed converter fault => .conversionFailed converter (.under name fault)
  | e => e

/-- The values of raw values, converted as the schema says for a name. -/
def convert (registry : Registry) (schema : ObjectSchema) (name : String)
    (values : List RawValue) : Except QueryError Value :=
  match schema.converterFor name with
  | none => .ok (plain values)
  | some converter => do
    let c ← registry.get converter
    let vs ← values.mapM fun raw => (c.fromDirectory raw).mapError (underName name)
    return Value.collapse vs

/-- The values found in attributes, one after another: each serves the names that are mapped to
it, and then its own. -/
def collect (registry : Registry) (schema : ObjectSchema) :
    Projection → OrderedMap Value → List (String × List RawValue) →
      Except QueryError (Projection × OrderedMap Value)
  | p, found, [] => .ok (p, found)
  | p, found, (directoryName, values) :: rest => do
    let (names, p) := p.claimAll (schema.namesMappedTo directoryName ++ [directoryName])
    let found ← names.foldlM (fun found name => do
      let v ← convert registry schema name values
      return found.insert name v) found
    collect registry schema p found rest

/-- The values found, with the default values of names that were not. -/
def fillDefaults (schema : ObjectSchema) (p : Projection) (found : OrderedMap Value) :
    OrderedMap Value :=
  p.missing.foldl (fun found name =>
    match schema.defaultValue name with
    | some v => found.insert name v
    | none => found) found

/-- The entry under its own names, each value as it is stored. -/
def passThrough (e : Entry) : HydratedEntry :=
  { dn := e.dn
    attributes := .ofList (e.normalized.map fun p => (p.1, plain p.2)) }

/-- An entry hydrated. Without a schema it passes through. -/
def hydrate (h : Hydrator) (e : Entry) : Except QueryError HydratedEntry :=
  match h.schema with
  | none => .ok (passThrough e)
  | some schema => do
    let (p, found) ← collect h.registry schema (.ofSelection h.selection) .empty e.normalized
    return { dn := e.dn, attributes := fillDefaults schema p found }

/-- Entries hydrated in order, up to the first failure. -/
def hydrateAll (h : Hydrator) (es : List Entry) : Except QueryError (List HydratedEntry) :=
  es.mapM h.hydrate

end Hydrator

end DirectoryLens
