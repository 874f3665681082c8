/-
Schemas whose maps are set again and again.

* `OrderedMap.lastValues`: the pairs of a list by their keys, each key once, with the value that it
  is given last;
* `OrderedMap.toList_ofList`: these are the pairs of the map of a list;
* `Declaration.last`, `find?`, `namesFor`: what is declared last, and scans of it;
* `IndexedSchema.Kept`: the tables of a schema are those of its maps;
* `IndexedSchema.Kept.declareAll`: they stay so, whatever is declared;
* `IndexedSchema.lookups_declareAll`: lookups are scans of what is declared last.
-/
import Mathlib.Tactic
import DirectoryLens.Proofs.Schema.Lookup
import DirectoryLens.Schema.Indexed

namespace DirectoryLens

open Text

variable {α : Type}

/-! ### Maps of pairs -/

namespace OrderedMap

/-- The pairs of a list by their keys: each key once, in its first place, with the value that it is
given last. -/
def lastValues : List (String × α) → List (String × α)
  | [] => []
  | (k, v) :: rest =>
    (k, ((rest.reverse.find? (·.1 == k)).map (·.2)).getD v)
      :: (lastValues rest).filter fun p => p.1 != k

/-- Of the pairs with other keys those stay in which a value is set. -/
lemma filter_insertPair {k q : String} (h : q ≠ k) (v : α) : ∀ pairs : List (String × α),
    (insertPair q v pairs).filter (fun p => p.1 != k)
      = insertPair q v (pairs.filter fun p => p.1 != k)
  | [] => by simp [insertPair, h]
  | (k', w) :: rest => by
      rw [insertPair]
      by_cases hq : k' = q
      · subst hq
        simp [insertPair, h]
      · by_cases hk : k' = k
        · simp [hk, h.symm, filter_insertPair h v rest]
        · simp [insertPair, hq, hk, filter_insertPair h v rest]

/-- The pairs with other keys are not touched when a value is set. -/
lemma filter_insertPair_self (k : String) (v : α) : ∀ pairs : List (String × α),
    (insertPair k v pairs).filter (fun p => p.1 != k) = pairs.filter fun p => p.1 != k
  | [] => by simp [insertPair]
  | (k', w) :: rest => by
      rw [insertPair]
      by_cases hk : k' = k
      · rw [if_pos hk, List.filter_cons_of_neg (by simp), List.filter_cons_of_neg (by simp [hk])]
      · rw [if_neg hk, List.filter_cons, List.filter_cons, filter_insertPair_self k v rest]

/-- One more pair sets a value. -/
lemma lastValues_append (q : String) (w : α) : ∀ pairs : List (String × α),
    lastValues (pairs ++ [(q, w)]) = insertPair q w (lastValues pairs)
  | [] => rfl
  | (k, v) :: rest => by
      rw [List.cons_append, lastValues, lastValues, lastValues_append q w rest, insertPair]
      by_cases hk : k = q
      · subst hk
        rw [if_pos rfl, filter_insertPair_self]
        simp
      · have hq : q ≠ k := fun h => hk h.symm
        rw [if_neg hk, filter_insertPair hq]
        simp [hq]

/-- **The map of a list** has each of its keys once, in its first place, with its last value. -/
theorem toList_ofList (pairs : List (String × α)) :
    (ofList pairs).toList = lastValues pairs := by
  induction pairs using List.reverseRecOn with
  | nil => rfl
  | append_singleton pairs p ih =>
      rw [lastValues_append, ← ih, ofList, List.foldl_append]
      rfl

/-- Each key is there once. -/
lemma nodup_keys_lastValues : ∀ pairs : List (String × α),
    ((lastValues pairs).map (·.1)).Nodup
  | [] => List.nodup_nil
  | (k, v) :: rest => by
      rw [lastValues, List.map_cons, List.nodup_cons]
      refine ⟨?_, (nodup_keys_lastValues rest).sublist (List.filter_sublist.map _)⟩
      simp

/-- The map of a list has each key once. -/
lemma nodup_keys_ofList (pairs : List (String × α)) : (ofList pairs).keys.Nodup := by
  rw [keys, toList_ofList]
  exact nodup_keys_lastValues pairs

end OrderedMap

/-! ### Declarations -/

namespace Declaration

/-- The attribute names that are declared. -/
def attributes? : Declaration → Option (List (String × String))
  | .attributes pairs => some pairs
  | .converters _ | .defaults _ => none

/-- The converters that are declared. -/
def converters? : Declaration → Option (List (String × String))
  | .converters pairs => some pairs
  | .attributes _ | .defaults _ => none

/-- The default values that are declared. -/
def defaults? : Declaration → Option (List (String × Value))
  | .defaults pairs => some pairs
  | .attributes _ | .converters _ => none

/-- What the last declaration of its sort declares, each key once; nothing if there is none. -/
def last (sort? : Declaration → Option (List (String × α))) (ds : List Declaration) :
    List (String × α) :=
  OrderedMap.lastValues ((ds.filterMap sort?).getLast?.getD [])

/-- What the last of the pairs declares whose name folds like the given one. -/
def find? (pairs : List (String × α)) (name : String) : Option α :=
  (pairs.reverse.find? fun p => fold p.1 == fold name).map (·.2)

/-- The names of the pairs whose directory name folds like the given one. -/
def namesFor (pairs : List (String × String)) (directoryName : String) : List String :=
  (pairs.filter fun p => fold p.2 == fold directoryName).map (·.1)

end Declaration

namespace IndexedSchema

/-! ### Tables -/

/-- The tables are those of the maps, which have each key once. -/
structure Kept (t : IndexedSchema) : Prop where
  targets : t.targets = ObjectSchema.foldedIndex t.schema.attributes
  aliases : t.aliases = ObjectSchema.aliasIndex t.schema.attributes
  converters : t.converters = ObjectSchema.foldedIndex t.schema.converters
  defaultNames :
    t.defaultNames = ObjectSchema.foldedIndex ⟨t.schema.defaults.keys.map fun k => (k, k)⟩
  nodup_defaults : t.schema.defaults.keys.Nodup

/-- Before any map is set the tables are empty, as the maps are. -/
lemma kept_bare (s : ObjectSchema) : (bare s).Kept :=
  ⟨rfl, rfl, rfl, rfl, List.nodup_nil⟩

/-- Names are entered into two tables, and into no other one. -/
lemma foldl_enter (pairs : List (String × String)) : ∀ t : IndexedSchema,
    pairs.foldl enter t =
      { t with
        targets := pairs.foldl (fun index p => index.insert (fold p.1) p.2) t.targets
        aliases := pairs.foldl (fun index p => index.insert (fold p.2)
          ((index.get? (fold p.2)).getD [] ++ [p.1])) t.aliases } := by
  induction pairs with
  | nil => exact fun _ => rfl
  | cons p pairs ih => exact fun t => ih (t.enter p)

/-- The tables for attribute names are filled from the map alone. -/
lemma setAttributes_eq (t : IndexedSchema) (pairs : List (String × String)) :
    t.setAttributes pairs =
      { t with
        schema := t.schema.setAttributes pairs
        targets := ObjectSchema.foldedIndex (.ofList pairs)
        aliases := ObjectSchema.aliasIndex (.ofList pairs) } :=
  foldl_enter _ _

/-- A declaration keeps the tables in step with the maps. -/
lemma Kept.declare {t : IndexedSchema} (h : t.Kept) (d : Declaration) : (t.declare d).Kept := by
  cases d with
  | attributes pairs =>
      rw [IndexedSchema.declare, setAttributes_eq]
      exact ⟨rfl, rfl, h.converters, h.defaultNames, h.nodup_defaults⟩
  | converters pairs => exact ⟨h.targets, h.aliases, rfl, h.defaultNames, h.nodup_defaults⟩
  | defaults pairs =>
      exact ⟨h.targets, h.aliases, h.converters, rfl, OrderedMap.nodup_keys_ofList pairs⟩

/-- **The tables stay in step with the maps**, whatever is declared. -/
theorem Kept.declareAll {t : IndexedSchema} (h : t.Kept) (ds : List Declaration) :
    (t.declareAll ds).Kept := by
  induction ds generalizing t with
  | nil => exact h
  | cons d ds ih => exact ih (h.declare d)

/-! ### Maps -/

/-- What a declaration makes of the schema is said without the tables. -/
lemma schema_declare (t : IndexedSchema) (d : Declaration) :
    (t.declare d).schema = match d with
      | .attributes pairs => t.schema.setAttributes pairs
      | .converters pairs => t.schema.setConverters pairs
      | .defaults pairs => t.schema.setDefaults pairs := by
  cases d with
  | attributes pairs => rw [declare, setAttributes_eq]
  | converters | defaults => rfl

/-- The last declaration comes after the others. -/
@[simp] lemma declareAll_concat (t : IndexedSchema) (ds : List Declaration) (d : Declaration) :
    t.declareAll (ds ++ [d]) = (t.declareAll ds).declare d :=
  List.foldl_append

/-- A map that the declarations of one sort set, and no others touch, is in the end that of the last
of them. -/
lemma toList_declareAll (map : IndexedSchema → OrderedMap α)
    {sort? : Declaration → Option (List (String × α))}
    (hdeclare : ∀ t d, map (t.declare d) = ((sort? d).map OrderedMap.ofList).getD (map t))
    {t : IndexedSchema} (ht : map t = .empty) (ds : List Declaration) :
    (map (t.declareAll ds)).toList = Declaration.last sort? ds := by
  induction ds using List.reverseRecOn with
  | nil => exact congrArg OrderedMap.toList ht
  | append_singleton ds d ih =>
      rw [declareAll_concat, hdeclare, Declaration.last, List.filterMap_append]
      cases hd : sort? d with
      | none =>
          rw [List.filterMap_cons_none hd, List.filterMap_nil, List.append_nil]
          exact ih
      | some pairs =>
          rw [List.filterMap_cons_some hd, List.filterMap_nil, List.getLast?_append,
            List.getLast?_singleton]
          exact OrderedMap.toList_ofList pairs

section Bare

variable (s : ObjectSchema) (ds : List Declaration)

/-- The attribute names of a schema are those declared last. -/
@[simp] lemma attributes_declareAll : ((bare s).declareAll ds).schema.attributes.toList
    = Declaration.last Declaration.attributes? ds := by
  refine toList_declareAll (fun t => t.schema.attributes) (fun t d => ?_) rfl ds
  rw [schema_declare]
  cases d <;> rfl

/-- The converters of a schema are those declared last. -/
@[simp] lemma converters_declareAll : ((bare s).declareAll ds).schema.converters.toList
    = Declaration.last Declaration.converters? ds := by
  refine toList_declareAll (fun t => t.schema.converters) (fun t d => ?_) rfl ds
  rw [schema_declare]
  cases d <;> rfl

/-- The default values of a schema are those declared last. -/
@[simp] lemma defaults_declareAll : ((bare s).declareAll ds).schema.defaults.toList
    = Declaration.last Declaration.defaults? ds := by
  refine toList_declareAll (fun t => t.schema.defaults) (fun t d => ?_) rfl ds
  rw [schema_declare]
  cases d <;> rfl

/-- Declarations leave the name of a schema. -/
@[simp] lemma id_declareAll : ((bare s).declareAll ds).schema.id = s.id := by
  induction ds using List.reverseRecOn with
  | nil => rfl
  | append_singleton ds d ih =>
      rw [declareAll_concat, schema_declare, ← ih]
      cases d <;> rfl

end Bare

/-! ### Lookups -/

namespace Kept

variable {t : IndexedSchema} (h : t.Kept) (name : String)
include h

/-- The table of directory names answers for the map. -/
lemma directoryName?_eq : t.directoryName? name = t.schema.directoryName? name := by
  rw [directoryName?, h.targets, ObjectSchema.directoryName?]

/-- A name stands for the directory name that it stands for by the map. -/
lemma directoryName_eq : t.directoryName name = t.schema.directoryName name := by
  rw [directoryName, h.directoryName?_eq, ObjectSchema.directoryName]

/-- A name is refused when it is not mapped by the map. -/
lemma mappedName_eq : t.mappedName name = t.schema.mappedName name := by
  rw [mappedName, h.directoryName?_eq]
  rfl

/-- The table of names answers for the map. -/
lemma namesMappedTo_eq : t.namesMappedTo name = t.schema.namesMappedTo name := by
  rw [namesMappedTo, h.aliases, ObjectSchema.namesMappedTo]

/-- The table of converters answers for the map. -/
lemma converterFor_eq : t.converterFor name = t.schema.converterFor name := by
  rw [converterFor, h.converters, ObjectSchema.converterFor]

/-- The table of names with default values leads to the value that the map has for the name. -/
lemma defaultValue_eq : t.defaultValue name = t.schema.defaultValue name := by
  have hnames : t.defaultNames.get? (fold name)
      = (t.schema.defaults.toList.reverse.find? fun p => fold p.1 == fold name).map (·.1) := by
    rw [h.defaultNames, ObjectSchema.get?_foldedIndex, OrderedMap.keys, List.map_map,
      ← List.map_reverse, List.find?_map, Option.map_map]
    rfl
  rw [defaultValue, hnames, ObjectSchema.defaultValue, ObjectSchema.get?_foldedIndex]
  cases hfind : t.schema.defaults.toList.reverse.find? fun p => fold p.1 == fold name with
  | none => rfl
  | some p =>
      have hmem : p ∈ t.schema.defaults.toList :=
        List.mem_reverse.mp (List.mem_of_find?_eq_some hfind)
      exact (OrderedMap.get?_eq_some_iff h.nodup_defaults).mpr hmem

end Kept

/-- **Lookups are scans of what is declared last.** After the maps of a schema were set in any
order and any number of times, a name has the directory name of the last declared name that folds
alike, or stands for itself, or is refused where unmapped names are; the names mapped to a directory
name are those declared with one that folds alike, each once and in their order; a converter and a
default value are those of the last declared name that folds alike. All of this is read from the
last map of its sort alone, and the lookups that go without the tables say the same. -/
theorem lookups_declareAll (s : ObjectSchema) (ds : List Declaration) (name : String) :
    let t := (bare s).declareAll ds
    let attributes := Declaration.last Declaration.attributes? ds
    let target? := Declaration.find? attributes name
    (t.directoryName name = target?.getD name
        ∧ t.mappedName name = target?.elim (.error (.unmappedAttribute name s.id)) .ok)
      ∧ (t.namesMappedTo name = Declaration.namesFor attributes name
        ∧ (t.namesMappedTo name).Nodup)
      ∧ t.converterFor name
          = Declaration.find? (Declaration.last Declaration.converters? ds) name
      ∧ t.defaultValue name = Declaration.find? (Declaration.last Declaration.defaults? ds) name
      ∧ (t.schema.directoryName name = t.directoryName name
        ∧ t.schema.mappedName name = t.mappedName name
        ∧ t.schema.namesMappedTo name = t.namesMappedTo name
        ∧ t.schema.converterFor name = t.converterFor name
        ∧ t.schema.defaultValue name = t.defaultValue name) := by
  intro t attributes target?
  have hkept : t.Kept := (kept_bare s).declareAll ds
  have hattributes : t.schema.attributes.toList = attributes := attributes_declareAll s ds
  have htarget : t.directoryName? name = target? := by
    rw [hkept.directoryName?_eq, ObjectSchema.directoryName?_eq, hattributes]
    rfl
  have hnames : t.namesMappedTo name = Declaration.namesFor attributes name := by
    rw [hkept.namesMappedTo_eq, ObjectSchema.namesMappedTo_eq, hattributes]
    rfl
  refine ⟨⟨?_, ?_⟩, ⟨hnames, ?_⟩, ?_, ?_, ?_⟩
  · rw [directoryName, htarget]
  · rw [mappedName, htarget, id_declareAll]
    cases target? <;> rfl
  · rw [hnames]
    exact (OrderedMap.nodup_keys_lastValues _).sublist (List.filter_sublist.map _)
  · rw [hkept.converterFor_eq, ObjectSchema.converterFor, ObjectSchema.get?_foldedIndex,
      converters_declareAll]
    rfl
  · rw [hkept.defaultValue_eq, ObjectSchema.defaultValue, ObjectSchema.get?_foldedIndex,
      defaults_declareAll]
    rfl
  · exact ⟨(hkept.directoryName_eq name).symm, (hkept.mappedName_eq name).symm,
      (hkept.namesMappedTo_eq name).symm, (hkept.converterFor_eq name).symm,
      (hkept.defaultValue_eq name).symm⟩

end IndexedSchema

end DirectoryLens
