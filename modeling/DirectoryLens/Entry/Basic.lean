/-
Entries as a directory hands them out.

* `Entry`: a distinguished name, and raw values under names that differ beyond their case;
* `Entry.insert`: values added behind those of the same name;
* `Entry.ofPairs`, `Entry.ofCounted`, `Entry.ofSearch`: entries from the forms they come in;
* `Entry.get?`, `Entry.toList`, `Entry.normalized`: the views of an entry;
* `Entry.json`, `Entry.ofJson?`: entries as JSON and back.
-/
import DirectoryLens.OrderedMap
import DirectoryLens.Text.Fold
import DirectoryLens.Value.Stored

namespace DirectoryLens

/-- An entry. Each key leads to the name under which the attribute first came, and its values. -/
structure Entry where
  dn : Option String
  attributes : OrderedMap (String × List RawValue)

namespace Entry

/-- The entry without a name and without attributes. -/
def empty : Entry :=
  ⟨none, .empty⟩

/-! ### Making entries -/

/-- The entry with values added to an attribute, whose name is compared folded and keeps its first
spelling. -/
def insert (e : Entry) (name : String) (values : List RawValue) : Entry :=
  let key := Text.fold name
  let (first, old) := (e.attributes.get? key).getD (name, [])
  { e with attributes := e.attributes.insert key (first, old ++ values) }

/-- The entry of names with values, added one after another. -/
def insertAll (e : Entry) (pairs : List (String × List RawValue)) : Entry :=
  pairs.foldl (fun e p => e.insert p.1 p.2) e

/-- The entry of names with values. -/
def ofPairs (pairs : List (String × List RawValue)) : Entry :=
  empty.insertAll pairs

/-- A name that is bookkeeping and no attribute: none at all, `count`, `dn`, or digits alone. -/
def isBookkeeping (name : String) : Bool :=
  let s := name.toList
  s.isEmpty || Text.eqIgnoringAsciiCase s "count".toList
    || Text.eqIgnoringAsciiCase s "dn".toList || s.all Char.isDigit

/-- The entry of names with counted values: those beyond the count are dropped, and so is
bookkeeping. -/
def ofCounted (dn : Option String) (triples : List (String × Nat × List RawValue)) : Entry :=
  { ofPairs ((triples.filter fun t => !isBookkeeping t.1).map fun t => (t.1, t.2.2.take t.2.1))
    with dn }

/-- The entry of a search result, whose texts and octets come apart and in no order. Attributes are
put in the order of their folded names, texts before octets. -/
def ofSearch (dn : String) (texts : OrderedMap (List String))
    (binaries : OrderedMap (List Octets)) : Entry :=
  let pairs := texts.toList.map (fun p => (p.1, p.2.map RawValue.text))
    ++ binaries.toList.map (fun p => (p.1, p.2.map RawValue.binary))
  { ofPairs (pairs.mergeSort fun a b => Text.fold a.1 ≤ Text.fold b.1) with dn := some dn }

/-! ### Views -/

/-- The values of a name. -/
def get? (e : Entry) (name : String) : Option (List RawValue) :=
  (e.attributes.get? (Text.fold name)).map (·.2)

/-- A name has values, or none of them. -/
def contains (e : Entry) (name : String) : Bool :=
  e.attributes.contains (Text.fold name)

/-- The attributes in the order in which they came. -/
def toList (e : Entry) : List (String × List RawValue) :=
  e.attributes.toList.map (·.2)

/-- The attributes that are no bookkeeping. -/
def normalized (e : Entry) : List (String × List RawValue) :=
  e.toList.filter fun p => !isBookkeeping p.1

/-- The number of attributes. -/
def size (e : Entry) : Nat :=
  e.attributes.size

/-! ### JSON -/

/-- An attribute as JSON: its name and its values. -/
def attributeJson (p : String × List RawValue) : Json :=
  .array [Json.ofString p.1, Json.ofList RawValue.json p.2]

/-- The attribute that a JSON value stands for. -/
def attributeOfJson? : Json → Option (String × List RawValue)
  | .array [name, values] => do return (← name.asText?, ← values.asList? RawValue.ofJson?)
  | _ => none

/-- An entry as JSON, its attributes under their keys. -/
def json (e : Entry) : Json :=
  let attributes := Json.record (e.attributes.toList.map fun p => (p.1, attributeJson p.2))
  Json.record <|
    (e.dn.toList.map fun dn => ("dn", Json.ofString dn)) ++ [("attributes", attributes)]

/-- The entry that a JSON value stands for, whose keys are taken as they are. -/
def ofJson? (j : Json) : Option Entry := do
  match ← j.fields? ["dn", "attributes"] with
  | [dn, attributes] =>
    return { dn := ← Json.field? (Json.asNullable? Json.asText?) none dn
             attributes := OrderedMap.ofList (← (← attributes).asMap? attributeOfJson?) }
  | _ => none

end Entry

end DirectoryLens
