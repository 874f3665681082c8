/-
Definitions that are written as JSON and read again.

* `OrderedMap.ofList_eq`: the map of pairs whose keys differ has these pairs;
* `SchemaDefinition.json_eq`: a definition is written as a record of its fields, some left out;
* `SchemaDefinition.reloaded`: what a definition is read as, each default value as its norm;
* `SchemaDefinition.reload_normalizes`: a definition is read as that, unless a default value is
  nested too deep, and is itself again when its default values are plain;
* `SchemaDefinition.user_not_reloaded`: the definition of users does not come back.
-/
import DirectoryLens.ActiveDirectory.Schemas
import DirectoryLens.Entry.Hydration
import DirectoryLens.Proofs.Value.Stored

namespace DirectoryLens

variable {α β : Type}

/-! ### Maps -/

namespace OrderedMap

/-- Pairs whose keys are new are added in order. -/
lemma foldl_insert : ∀ {pairs : List (String × α)} {m : OrderedMap α},
    (m.keys ++ pairs.map (·.1)).Nodup →
      pairs.foldl (fun m p => m.insert p.1 p.2) m = ⟨m.toList ++ pairs⟩
  | [], m, _ => by
      rw [List.foldl_nil, List.append_nil]
  | p :: pairs, m, h => by
      have hnew : p.1 ∉ m.keys := fun hmem =>
        List.disjoint_of_nodup_append h hmem (by simp)
      have hrest : ((m.insert p.1 p.2).keys ++ pairs.map (·.1)).Nodup := by
        rwa [keys_insert hnew, List.append_assoc, List.singleton_append, ← List.map_cons]
      rw [List.foldl_cons, foldl_insert hrest, toList_insert hnew, List.append_assoc,
        List.singleton_append]

/-- The map of pairs whose keys differ has these pairs. -/
lemma ofList_eq {pairs : List (String × α)} (h : (pairs.map (·.1)).Nodup) :
    ofList pairs = ⟨pairs⟩ :=
  foldl_insert (m := empty) h

end OrderedMap

namespace SchemaDefinition

/-- A map whose keys differ is read as one with the same keys. -/
lemma mapOfJson?_mapJson {f : α → Json} {g : Json → Option β} {k : α → β} {p : α → Prop}
    [DecidablePred p] {m : OrderedMap α} (hm : m.keys.Nodup)
    (h : ∀ q ∈ m.toList, g (f q.2) = if p q.2 then some (k q.2) else none) :
    mapOfJson? g (mapJson f m)
      = if ∀ q ∈ m.toList, p q.2 then some ⟨m.toList.map fun q => (q.1, k q.2)⟩ else none := by
  have hkeys : ((m.toList.map fun q => (q.1, k q.2)).map (·.1)).Nodup := by
    rwa [List.map_map]
  rw [mapOfJson?, Json.asMap?_mapJson h, ← OrderedMap.ofList_eq hkeys]
  split <;> rfl

/-- A map of texts whose keys differ is read as itself. -/
lemma mapOfJson?_textMap {m : OrderedMap String} (hm : m.keys.Nodup) :
    mapOfJson? Json.asText? (mapJson Json.ofString m) = some m := by
  have h := mapOfJson?_mapJson (f := Json.ofString) (g := Json.asText?) (k := id)
    (p := fun _ => True) hm fun q _ => (if_pos trivial).symm
  rw [h, if_pos fun _ _ => trivial]
  exact congrArg some (congrArg OrderedMap.mk (List.map_id _))

/-! ### Fields -/

/-- What is left out when a list is empty is read as the empty list. -/
lemma field?_texts (ts : List String) :
    Json.field? Json.asTexts? [] (if ts.isEmpty then none else some (textsJson ts)) = some ts := by
  cases ts with
  | nil => rfl
  | cons t ts => exact Json.asTexts?_textsJson (t :: ts)

/-- What is left out when it is absent is read as absent. -/
lemma field?_nullable {f : α → Json} {g : Json → Option α} (h : ∀ a, g (f a) = some a)
    (hnull : ∀ a, f a ≠ .null) (o : Option α) :
    Json.field? (Json.asNullable? g) none (o.map f) = some o := by
  cases o with
  | none => rfl
  | some a =>
      have hsome : Json.asNullable? g (f a) = (g (f a)).map some := by
        cases hf : f a with
        | null => exact absurd hf (hnull a)
        | bool | number | string | array | object => rfl
      rw [Option.map_some, Json.field?, hsome, h, Option.map_some]

/-- A scope is read as itself. -/
@[simp] lemma scopeOfJson?_json (s : Scope) : Scope.ofJson? s.json = some s := by
  cases s <;> rfl

/-- A page size is read as itself. -/
@[simp] lemma pageSizeOfJson?_json (n : UInt32) :
    Config.pageSizeOfJson? (Config.pageSizeJson n) = some n := by
  have hlt := n.toNat_lt
  rw [Config.pageSizeOfJson?, Config.pageSizeJson, Json.asUnsigned?_ofInt (by omega) (by omega),
    if_pos ⟨by omega, by omega⟩, Int.toNat_natCast, Option.map_some, UInt32.ofNat_toNat]

/-- The fields of a definition, those that are left out being absent. -/
def fields (d : SchemaDefinition) : List (Option Json) :=
  let texts (ts : List String) : Option Json :=
    if ts.isEmpty then none else some (textsJson ts)
  [some (Json.ofString d.schemaName), some (Json.ofString d.objectType), texts d.objectClass,
    d.objectCategory.map Json.ofString, some (mapJson Json.ofString d.attributes),
    some (mapJson Json.ofString d.converters), texts d.select, texts d.required,
    if d.defaults.toList.isEmpty then none else some (mapJson Value.json d.defaults),
    d.repository.map Json.ofString, texts d.rdn, d.baseDn.map Json.ofString,
    d.scope.map Scope.json, d.pageSize.map Config.pageSizeJson]

/-- A definition is written as a record of its fields. -/
lemma json_eq (d : SchemaDefinition) :
    d.json = Json.record (Json.given (fieldNames.zip d.fields)) := by
  have hite : ∀ (b : Bool) (name : String) (j : Json),
      (if b then [] else [(name, j)])
        = (if b then none else some j).toList.map fun j => (name, j) := by
    intro b name j
    cases b <;> rfl
  simp only [json, fields, fieldNames, List.zip_cons_cons, List.zip_nil_left, Json.given_cons, hite]
  simp [Json.given]

/-! ### Reading -/

/-- The maps of a definition have no key twice. -/
structure DistinctKeys (d : SchemaDefinition) : Prop where
  attributes : d.attributes.keys.Nodup
  converters : d.converters.keys.Nodup
  defaults : d.defaults.keys.Nodup

/-- The doubles of the default values are read as what they were written for. -/
def FloatsReadBack (d : SchemaDefinition) : Prop :=
  ∀ p ∈ d.defaults.toList, ∀ x ∈ p.2.floats, Value.ReadsBack x

instance (d : SchemaDefinition) : Decidable d.FloatsReadBack :=
  inferInstanceAs (Decidable (∀ p ∈ d.defaults.toList, ∀ x ∈ p.2.floats, Value.ReadsBack x))

/-- A map with each value replaced by its norm. -/
def normalized (m : OrderedMap Value) : OrderedMap Value :=
  ⟨m.toList.map fun p => (p.1, p.2.norm)⟩

/-- What a definition is read as: each default value as its norm. -/
def reloaded (d : SchemaDefinition) : SchemaDefinition :=
  { d with defaults := normalized d.defaults }

/-- Default values are read as their norms, unless one is nested too deep. -/
lemma field?_defaults {m : OrderedMap Value} (hm : m.keys.Nodup)
    (hfloats : ∀ p ∈ m.toList, ∀ x ∈ p.2.floats, Value.ReadsBack x) (depth : Nat) :
    Json.field? (mapOfJson? (Value.ofJson? depth)) .empty
        (if m.toList.isEmpty then none else some (mapJson Value.json m))
      = if ∀ p ∈ m.toList, p.2.nesting ≤ depth then some (normalized m) else none := by
  have hread := mapOfJson?_mapJson (p := fun v => v.nesting ≤ depth) hm
    fun p hp => Value.ofJson?_json p.2 depth (hfloats p hp)
  obtain ⟨pairs⟩ := m
  cases pairs with
  | nil =>
      rw [if_pos fun p hp => by cases hp]
      rfl
  | cons p pairs => exact hread

/-- A definition is read with each default value as its norm, unless one is nested too deep. -/
lemma ofJson?_json {d : SchemaDefinition} (hkeys : d.DistinctKeys) (hfloats : d.FloatsReadBack) :
    ofJson? d.json
      = if ∀ p ∈ d.defaults.toList, p.2.nesting ≤ Value.maxDepth - 2 then some d.reloaded
        else none := by
  have hnames : (fieldNames.zip d.fields).map (·.1) = fieldNames := rfl
  have hvalues : (fieldNames.zip d.fields).map (·.2) = d.fields := rfl
  have hnodup : fieldNames.Nodup := by decide
  have hfields := Json.fields?_record (hnames ▸ hnodup)
  have hread : ∀ s : String, (Json.ofString s).asText? = some s := fun _ => rfl
  have htext := field?_nullable hread (fun _ h => by cases h)
  have hattributes : Json.field? (mapOfJson? Json.asText?) .empty
      (some (mapJson Json.ofString d.attributes)) = some d.attributes :=
    mapOfJson?_textMap hkeys.attributes
  have hconverters : Json.field? (mapOfJson? Json.asText?) .empty
      (some (mapJson Json.ofString d.converters)) = some d.converters :=
    mapOfJson?_textMap hkeys.converters
  have hscope := field?_nullable scopeOfJson?_json (fun _ h => by cases h) d.scope
  have hpage := field?_nullable pageSizeOfJson?_json (fun _ h => by cases h) d.pageSize
  have hdefaults := field?_defaults hkeys.defaults hfloats (Value.maxDepth - 2)
  rw [hnames, hvalues] at hfields
  rw [json_eq, ofJson?, hfields]
  rw [Option.bind_eq_bind, Option.bind_some, fields]
  dsimp only
  rw [field?_texts, field?_texts, field?_texts, field?_texts, htext, htext, htext, hattributes,
    hconverters, hscope, hpage, hdefaults]
  by_cases hdepth : ∀ p ∈ d.defaults.toList, p.2.nesting ≤ Value.maxDepth - 2
  · rw [if_pos hdepth, if_pos hdepth]
    rfl
  · rw [if_neg hdepth, if_neg hdepth]
    rfl

/-- A map has norms for its values when these are plain. -/
lemma normalized_eq_self_iff (m : OrderedMap Value) :
    normalized m = m ↔ ∀ p ∈ m.toList, p.2.Plain := by
  have hmap : normalized m = m ↔ m.toList.map (fun p => (p.1, p.2.norm)) = m.toList.map id := by
    rw [normalized, OrderedMap.mk.injEq, List.map_id]
  rw [hmap, List.map_inj_left]
  refine forall₂_congr fun p _ => ?_
  rw [id, Prod.ext_iff, Value.norm_eq_self_iff]
  exact and_iff_right rfl

/-- The schema of a definition asks of all objects what the definition does, and has no page size of
zero. -/
lemma of_toSchema {d : SchemaDefinition} {s : ObjectSchema} (h : d.toSchema = .ok s) :
    s.filter = d.scopingFilter ∧ s.pageSize ≠ some 0 := by
  simp only [toSchema] at h
  split at h
  · cases h
  · split at h
    · cases h
    · rename_i hzero
      obtain rfl := Except.ok.inj h
      exact ⟨rfl, hzero⟩

/-- The schema of what a definition is read as differs in its default values only. -/
lemma toSchema_reloaded (d : SchemaDefinition) :
    d.reloaded.toSchema
      = (fun s => { s with defaults := normalized s.defaults }) <$> d.toSchema := by
  simp only [toSchema, apply_ite (Functor.map _)]
  rfl

/-- **A definition that is written and read again has the norms of its default values**, and is not
read at all when one of these is nested too deep. It is itself again just when its default values
are plain, and nothing else of its schema changes. -/
theorem reload_normalizes {d : SchemaDefinition} (hkeys : d.DistinctKeys)
    (hfloats : d.FloatsReadBack) :
    ofJson? d.json
        = (if ∀ p ∈ d.defaults.toList, p.2.nesting ≤ Value.maxDepth - 2 then some d.reloaded
          else none)
      ∧ (d.reloaded = d ↔ ∀ p ∈ d.defaults.toList, p.2.Plain)
      ∧ d.reloaded.toSchema
        = (fun s => { s with defaults := normalized s.defaults }) <$> d.toSchema := by
  refine ⟨ofJson?_json hkeys hfloats, ?_, toSchema_reloaded d⟩
  rw [← normalized_eq_self_iff]
  constructor
  · exact fun h => congrArg defaults h
  · intro h
    rw [reloaded, h]

/-- A definition of leads, with default values of several sorts. -/
def lead : SchemaDefinition :=
  { ofNames "crm" "lead" with
    attributes := .ofList [("seen", "lastSeen"), ("weight", "leadWeight")]
    defaults := .ofList
      [("tags", .array [.string "new", .array [.integer 7]]),
       ("seen", .dateTime ⟨0, 0, by decide⟩), ("weight", .float ⟨0x3FF8_0000_0000_0000⟩)] }

/-- Of the default values of leads, an array of one small number comes back as an octet, and a time
as its text. -/
theorem reload_normalizes_lead :
    lead.DistinctKeys ∧ lead.FloatsReadBack
      ∧ ofJson? lead.json = some { lead with
          defaults := .ofList
            [("tags", .array [.string "new", .binary [7]]),
             ("seen", .string "1970-01-01T00:00:00Z"),
             ("weight", .float ⟨0x3FF8_0000_0000_0000⟩)] }
      ∧ lead.reloaded ≠ lead := by
  have hkeys : lead.DistinctKeys := ⟨by decide, by decide, by decide⟩
  have hfloats : lead.FloatsReadBack := by decide +kernel
  obtain ⟨hread, hself, -⟩ := reload_normalizes hkeys hfloats
  refine ⟨hkeys, hfloats, ?_, ?_⟩
  · rw [hread]
    rfl
  · intro h
    exact hself.mp h ("seen", .dateTime ⟨0, 0, by decide⟩) (.tail _ (.head _))

/-- The definition of users does not come back: a user without groups has a list of none, but under
the definition that is read a string of no octets. -/
theorem user_not_reloaded :
    user.DistinctKeys ∧ user.FloatsReadBack ∧ ∃ d s s', ofJson? user.json = some d ∧ d ≠ user
      ∧ user.toSchema = .ok s ∧ d.toSchema = .ok s'
      ∧ Hydrator.hydrate ⟨.builtin, some s, none⟩ .empty
        = .ok ⟨none, ⟨[("member_of_dns", .array [])]⟩⟩
      ∧ Hydrator.hydrate ⟨.builtin, some s', none⟩ .empty
        = .ok ⟨none, ⟨[("member_of_dns", .binary [])]⟩⟩ := by
  have hkeys : user.DistinctKeys := ⟨by decide, by decide, by decide⟩
  have hfloats : user.FloatsReadBack := by decide +kernel
  refine ⟨hkeys, hfloats, _, _, _, (ofJson?_json hkeys hfloats).trans rfl, ?_, rfl, rfl, rfl, rfl⟩
  intro h
  have hvalues : [("member_of_dns", Value.binary [])] = [("member_of_dns", .array [])] :=
    congrArg (fun d => d.defaults.toList) h
  simp at hvalues

end SchemaDefinition

end DirectoryLens
