/-
Maps that keep the order in which their keys first came.

* `OrderedMap`: pairs of a key and a value;
* `insert`, `ofList`: a new key goes to the end, a known one keeps its place and takes the new
  value;
* `get?`, `contains`, `keys`: the view by keys;
* `get?_insert`: what an insertion does to the view;
* `toList_insert`: a new key goes to the end;
* `get?_eq_some_iff`: the view by keys that differ is that of the pairs.
-/

namespace DirectoryLens

/-- A map from texts whose pairs stand in the order in which their keys first came. -/
structure OrderedMap (α : Type) where
  toList : List (String × α)

namespace OrderedMap

variable {α : Type}

/-- The map without pairs. -/
def empty : OrderedMap α :=
  ⟨[]⟩

/-- The value of a key. -/
def get? (m : OrderedMap α) (k : String) : Option α :=
  (m.toList.find? (·.1 == k)).map (·.2)

/-- A key has a value. -/
def contains (m : OrderedMap α) (k : String) : Bool :=
  m.toList.any (·.1 == k)

/-- The keys, in order. -/
def keys (m : OrderedMap α) : List String :=
  m.toList.map (·.1)

/-- The number of pairs. -/
def size (m : OrderedMap α) : Nat :=
  m.toList.length

/-- The pairs with the value of a key replaced, or added behind them. -/
def insertPair (k : String) (v : α) : List (String × α) → List (String × α)
  | [] => [(k, v)]
  | (k', v') :: rest => if k' = k then (k, v) :: rest else (k', v') :: insertPair k v rest

/-- The map with a value for a key: in place when the key is known, else at the end. -/
def insert (m : OrderedMap α) (k : String) (v : α) : OrderedMap α :=
  ⟨insertPair k v m.toList⟩

/-- The map of pairs inserted one after another. -/
def ofList (pairs : List (String × α)) : OrderedMap α :=
  pairs.foldl (fun m p => m.insert p.1 p.2) empty

/-- Looking a key up after an insertion finds the new value under its key and the old ones
elsewhere. -/
theorem get?_insert (m : OrderedMap α) (k q : String) (v : α) :
    (m.insert k v).get? q = if q = k then some v else m.get? q := by
  obtain ⟨pairs⟩ := m
  simp only [get?, insert]
  by_cases hq : q = k
  · subst hq
    induction pairs with
    | nil => simp [insertPair]
    | cons p rest ih => by_cases hp : p.1 = q <;> simp_all [insertPair]
  · have hkq : k ≠ q := fun h => hq h.symm
    induction pairs with
    | nil => simp [insertPair, hq, hkq]
    | cons p rest ih =>
      by_cases hp : p.1 = k
      · simp [insertPair, hp, hq, hkq]
      · by_cases hpq : p.1 = q <;> simp_all [insertPair]

/-- A new key goes to the end. -/
theorem toList_insert {m : OrderedMap α} {k : String} (h : k ∉ m.keys) (v : α) :
    (m.insert k v).toList = m.toList ++ [(k, v)] := by
  obtain ⟨pairs⟩ := m
  show insertPair k v pairs = pairs ++ [(k, v)]
  induction pairs with
  | nil => rfl
  | cons p rest ih =>
      rw [keys, List.map_cons, List.mem_cons, not_or] at h
      have hp : p.1 ≠ k := fun heq => h.1 heq.symm
      rw [insertPair, if_neg hp, ih h.2]
      rfl

/-- The keys after a new one is inserted. -/
theorem keys_insert {m : OrderedMap α} {k : String} (h : k ∉ m.keys) (v : α) :
    (m.insert k v).keys = m.keys ++ [k] := by
  rw [keys, toList_insert h, List.map_append]
  rfl

/-- A map contains its keys. -/
@[simp] theorem contains_iff {m : OrderedMap α} {k : String} :
    m.contains k = true ↔ k ∈ m.keys := by
  simp [contains, keys]

/-- Looking up what is no key finds nothing. -/
theorem get?_eq_none {m : OrderedMap α} {k : String} (h : k ∉ m.keys) : m.get? k = none := by
  rw [get?, Option.map_eq_none_iff, List.find?_eq_none]
  intro p hp heq
  exact h (eq_of_beq heq ▸ List.mem_map_of_mem hp)

/-- Looking a key up finds the value that stands under it, where the keys differ. -/
theorem get?_eq_some_iff {m : OrderedMap α} (h : m.keys.Nodup) {k : String} {v : α} :
    m.get? k = some v ↔ (k, v) ∈ m.toList := by
  obtain ⟨pairs⟩ := m
  induction pairs with
  | nil => exact ⟨fun h => (by cases h), fun h => (by cases h)⟩
  | cons p rest ih =>
      obtain ⟨q, w⟩ := p
      rw [keys, List.map_cons, List.nodup_cons] at h
      rw [List.mem_cons, Prod.mk.injEq, ← ih h.2, get?, List.find?_cons]
      by_cases hq : q = k
      · have hrest : ((OrderedMap.mk rest).get? k = some v) → False := by
          intro hk
          exact h.1 (List.mem_map.mpr ⟨(k, v), (ih h.2).mp hk, hq.symm⟩)
        simp only [hq, beq_self_eq_true, Option.map_some, Option.some.injEq, true_and]
        exact ⟨fun hw => .inl hw.symm, fun hw => (hw.resolve_right hrest).symm⟩
      · have hbeq : (q == k) = false := by simp [hq]
        simp only [hbeq]
        exact ⟨.inr, fun hw => hw.resolve_left fun heq => hq heq.1.symm⟩

end OrderedMap

end DirectoryLens
