/-
Lookups in a schema as scans of what it declares.

* `get?_foldedIndex`: under a folded name stands what the last name that folds so declares;
* `getD_aliasIndex`: under a folded directory name stand the names that lead to it, in order;
* `directoryName?_congr`, `converterFor_congr`, `defaultValue_congr`, `namesMappedTo_congr`: names
  that fold alike are looked up alike;
* `namesMappedTo_eq`, `directoryName?_eq`: what an index holds, for a schema's attributes;
* `exists_mem_namesMappedTo`: the directory name of a mapped name has that name, up to case, among
  the names that are mapped to it;
* `DistinctNames.directoryName?`: where the declared names differ beyond their case, each leads to
  the directory name it was declared with.
-/
import Mathlib.Tactic
import DirectoryLens.Schema.Basic

namespace DirectoryLens.ObjectSchema

open Text

variable {α : Type}

/-! ### Indexes -/

/-- Of pairs inserted under their folded names the last one of a name counts. -/
lemma get?_foldl_insert (pairs : List (String × α)) (k : String) : ∀ m : OrderedMap α,
    (pairs.foldl (fun index p => index.insert (fold p.1) p.2) m).get? k
      = ((pairs.reverse.find? fun p => fold p.1 == k).map (·.2)).or (m.get? k) := by
  induction pairs with
  | nil => simp
  | cons p pairs ih =>
      intro m
      rw [List.foldl_cons, ih, OrderedMap.get?_insert, List.reverse_cons, List.find?_append]
      cases hrest : pairs.reverse.find? fun p => fold p.1 == k with
      | some q => simp
      | none =>
          by_cases hk : k = fold p.1
          · simp [hk]
          · have hne : (fold p.1 == k) = false := beq_eq_false_iff_ne.mpr fun h => hk h.symm
            simp [hk, hne]

/-- Under a folded name stands what the last name that folds so declares. -/
lemma get?_foldedIndex (m : OrderedMap α) (k : String) :
    (foldedIndex m).get? k = (m.toList.reverse.find? fun p => fold p.1 == k).map (·.2) := by
  rw [foldedIndex, get?_foldl_insert]
  exact Option.or_none

/-- Names are added behind those that lead to the same folded directory name. -/
lemma getD_foldl_alias (pairs : List (String × String)) (k : String) :
    ∀ m : OrderedMap (List String),
      ((pairs.foldl (fun index p => index.insert (fold p.2)
        ((index.get? (fold p.2)).getD [] ++ [p.1])) m).get? k).getD []
        = (m.get? k).getD [] ++ (pairs.filter fun p => fold p.2 == k).map (·.1) := by
  induction pairs with
  | nil => simp
  | cons p pairs ih =>
      intro m
      rw [List.foldl_cons, ih, OrderedMap.get?_insert]
      by_cases hk : k = fold p.2
      · simp [hk]
      · have hne : (fold p.2 == k) = false := beq_eq_false_iff_ne.mpr fun h => hk h.symm
        simp [hk, hne]

/-- Under a folded directory name stand the names that lead to it, in the order of their
declaration. -/
lemma getD_aliasIndex (m : OrderedMap String) (k : String) :
    ((aliasIndex m).get? k).getD [] = (m.toList.filter fun p => fold p.2 == k).map (·.1) :=
  getD_foldl_alias m.toList k .empty

/-! ### Names that fold alike -/

section Congr

variable {name name' : String} (h : fold name = fold name') (s : ObjectSchema)
include h

/-- Names that fold alike lead to one directory name. -/
lemma directoryName?_congr : s.directoryName? name = s.directoryName? name' := by
  rw [directoryName?, directoryName?, h]

/-- Names that fold alike have one converter. -/
lemma converterFor_congr : s.converterFor name = s.converterFor name' := by
  rw [converterFor, converterFor, h]

/-- Names that fold alike have one default value. -/
lemma defaultValue_congr : s.defaultValue name = s.defaultValue name' := by
  rw [defaultValue, defaultValue, h]

/-- The same names are mapped to directory names that fold alike. -/
lemma namesMappedTo_congr : s.namesMappedTo name = s.namesMappedTo name' := by
  rw [namesMappedTo, namesMappedTo, h]

end Congr

/-! ### Attributes -/

/-- The names mapped to a directory name are those declared with one that folds alike. -/
lemma namesMappedTo_eq (s : ObjectSchema) (d : String) :
    s.namesMappedTo d = (s.attributes.toList.filter fun p => fold p.2 == fold d).map (·.1) :=
  getD_aliasIndex s.attributes (fold d)

/-- A name leads to the directory name of the last declared name that folds alike. -/
lemma directoryName?_eq (s : ObjectSchema) (name : String) :
    s.directoryName? name
      = (s.attributes.toList.reverse.find? fun p => fold p.1 == fold name).map (·.2) :=
  get?_foldedIndex s.attributes (fold name)

/-- A directory name is declared with some name that folds like the one that leads to it. -/
lemma exists_mem_of_directoryName? {s : ObjectSchema} {name d : String}
    (h : s.directoryName? name = some d) :
    ∃ p ∈ s.attributes.toList, fold p.1 = fold name ∧ p.2 = d := by
  rw [directoryName?_eq, Option.map_eq_some_iff] at h
  obtain ⟨p, hp, hd⟩ := h
  refine ⟨p, List.mem_reverse.mp (List.mem_of_find?_eq_some hp), ?_, hd⟩
  simpa using List.find?_some hp

/-- The directory name of a mapped name has that name, up to case, among the names that are mapped
to it. -/
lemma exists_mem_namesMappedTo {s : ObjectSchema} {name d : String}
    (h : s.directoryName? name = some d) :
    ∃ n ∈ s.namesMappedTo d, fold n = fold name := by
  obtain ⟨p, hp, hname, rfl⟩ := exists_mem_of_directoryName? h
  refine ⟨p.1, ?_, hname⟩
  rw [namesMappedTo_eq]
  exact List.mem_map.mpr ⟨p, List.mem_filter.mpr ⟨hp, by simp⟩, rfl⟩

/-- The declared names differ beyond their case. -/
def DistinctNames (s : ObjectSchema) : Prop :=
  (s.attributes.keys.map fold).Nodup

/-- Where the declared names differ beyond their case, those that fold alike are declared once. -/
lemma DistinctNames.eq_of_fold_eq {s : ObjectSchema} (h : s.DistinctNames)
    {p q : String × String} (hp : p ∈ s.attributes.toList) (hq : q ∈ s.attributes.toList)
    (hfold : fold p.1 = fold q.1) : p = q := by
  rw [DistinctNames, OrderedMap.keys, List.map_map] at h
  exact List.inj_on_of_nodup_map h hp hq hfold

/-- Where the declared names differ beyond their case, each leads to the directory name it was
declared with. -/
lemma DistinctNames.directoryName? {s : ObjectSchema} (h : s.DistinctNames) {name d : String}
    (hname : (name, d) ∈ s.attributes.toList) : s.directoryName? name = some d := by
  rw [directoryName?_eq]
  cases hfind : s.attributes.toList.reverse.find? fun p => fold p.1 == fold name with
  | none =>
      have hmiss := List.find?_eq_none.mp hfind (name, d) (List.mem_reverse.mpr hname)
      simp at hmiss
  | some q =>
      have hq : fold q.1 = fold name := by simpa using List.find?_some hfind
      have hqmem := List.mem_reverse.mp (List.mem_of_find?_eq_some hfind)
      rw [h.eq_of_fold_eq hqmem hname hq, Option.map_some]

/-- Where the declared names differ beyond their case, what a declared name folds like is mapped to
nothing else. -/
lemma DistinctNames.fold_eq_of_mem_namesMappedTo {s : ObjectSchema} (h : s.DistinctNames)
    {name d : String} (hname : (name, d) ∈ s.attributes.toList) {n x : String}
    (hn : n ∈ s.namesMappedTo x) (hfold : fold n = fold name) : fold x = fold d := by
  rw [namesMappedTo_eq] at hn
  obtain ⟨q, hq, rfl⟩ := List.mem_map.mp hn
  obtain ⟨hqmem, hqx⟩ := List.mem_filter.mp hq
  rw [h.eq_of_fold_eq hqmem hname hfold, beq_iff_eq] at hqx
  exact hqx.symm

end DirectoryLens.ObjectSchema
