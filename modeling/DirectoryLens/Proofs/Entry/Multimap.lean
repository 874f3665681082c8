/-
Entries as maps of several values, in the order of their names.

* `OrderedMap.exists_insert_eq`: what is put under a known key takes the place of what was there;
* `distinctNames_concat`, `mem_distinctNames_iff`: the names of a list that come first;
* `Entry.insert_cases`: what one insertion can do;
* `Entry.Keyed`: the key of an attribute is its folded name;
* `Entry.valuesOf`: what a list of insertions gives to a name;
* `Entry.get?_ofPairs`, `Entry.toList_ofPairs`, `Entry.size_ofPairs`, `Entry.values_ofPairs_perm`:
  the views of an entry are those of its insertions, merged by folded names.

The invariant is that every attribute stands under its folded name (`Entry.Keyed`); an insertion
into such an entry either finds its name and puts values behind those that are there, or goes to
the end.
-/
import Mathlib.Tactic
import DirectoryLens.Proofs.Entry.Assignment
import DirectoryLens.Proofs.Entry.Bookkeeping

namespace DirectoryLens

open Text

/-! ### Maps -/

namespace OrderedMap

variable {α : Type} {m : OrderedMap α} {k : String} {v w : α}

/-- A key that leads nowhere is no key. -/
@[simp] lemma get?_eq_none_iff : m.get? k = none ↔ k ∉ m.keys := by
  refine ⟨fun h hk => ?_, get?_eq_none⟩
  rw [get?, Option.map_eq_none_iff, List.find?_eq_none] at h
  obtain ⟨p, hp, rfl⟩ := List.mem_map.mp hk
  exact h p hp (beq_self_eq_true _)

/-- What is put under a known key takes the place of what was there. -/
lemma exists_insert_eq (h : m.get? k = some w) (v : α) :
    ∃ before after, m.toList = before ++ (k, w) :: after
      ∧ (m.insert k v).toList = before ++ (k, v) :: after := by
  obtain ⟨pairs⟩ := m
  show ∃ before after, pairs = before ++ (k, w) :: after
    ∧ insertPair k v pairs = before ++ (k, v) :: after
  induction pairs with
  | nil => cases h
  | cons p rest ih =>
      obtain ⟨k', w'⟩ := p
      rw [get?, List.find?_cons] at h
      by_cases hk : k' = k
      · subst hk
        rw [beq_self_eq_true] at h
        obtain rfl := Option.some.inj h
        exact ⟨[], rest, rfl, if_pos rfl⟩
      · rw [beq_eq_false_iff_ne.mpr hk] at h
        obtain ⟨before, after, hrest, hinsert⟩ := ih h
        refine ⟨(k', w') :: before, after, by rw [hrest, List.cons_append], ?_⟩
        rw [insertPair, if_neg hk, hinsert, List.cons_append]

end OrderedMap

/-! ### Distinct names -/

/-- One more name is distinct when no name before it folds alike. -/
lemma distinctNames_concat (r : String) : ∀ names : List String,
    distinctNames (names ++ [r])
      = if ∃ n ∈ names, fold n = fold r then distinctNames names else distinctNames names ++ [r]
  | [] => by simp [distinctNames]
  | n :: names => by
      rw [List.cons_append, distinctNames, distinctNames, distinctNames_concat r names]
      by_cases hr : ∃ m ∈ names, fold m = fold r
      · obtain ⟨m, hm, hmr⟩ := hr
        rw [if_pos ⟨m, hm, hmr⟩, if_pos ⟨m, List.mem_cons_of_mem n hm, hmr⟩]
      · rw [if_neg hr, List.filter_append]
        by_cases hn : fold n = fold r
        · have hdropped : [r].filter (fun q => decide (fold q ≠ fold n)) = [] := by
            simp [hn]
          rw [if_pos ⟨n, List.mem_cons_self, hn⟩, hdropped, List.append_nil]
        · have hkept : [r].filter (fun q => decide (fold q ≠ fold n)) = [r] := by
            simp [Ne.symm hn]
          have hnone : ¬ ∃ m ∈ n :: names, fold m = fold r := by
            rintro ⟨m, hm, hmr⟩
            rcases List.mem_cons.mp hm with rfl | hm
            · exact hn hmr
            · exact hr ⟨m, hm, hmr⟩
          rw [if_neg hnone, hkept, List.cons_append]

/-- Names are kept alike before and after they are made distinct, if those that fold alike are. -/
lemma distinctNames_filter {keep : String → Bool}
    (hkeep : ∀ {x y}, fold x = fold y → keep x = keep y) : ∀ names : List String,
    distinctNames (names.filter keep) = (distinctNames names).filter keep
  | [] => rfl
  | n :: names => by
      rw [distinctNames, List.filter_cons, List.filter_cons]
      cases hn : keep n with
      | true =>
          rw [if_pos rfl, if_pos rfl, distinctNames, distinctNames_filter hkeep names,
            List.filter_comm]
      | false =>
          rw [if_neg Bool.false_ne_true, if_neg Bool.false_ne_true,
            distinctNames_filter hkeep names, List.filter_filter]
          refine List.filter_congr fun q _ => ?_
          -- a name that is kept does not fold like one that is not
          cases hq : keep q with
          | false => rfl
          | true =>
              have hne : fold q ≠ fold n := fun heq => by
                rw [hkeep heq, hn] at hq
                cases hq
              rw [decide_eq_true hne]
              rfl

/-- Distinct names stand in the order of the names. -/
lemma distinctNames_sublist : ∀ names : List String, (distinctNames names).Sublist names
  | [] => .slnil
  | n :: names => by
      rw [distinctNames]
      exact (List.filter_sublist.trans (distinctNames_sublist names)).cons_cons n

/-- A name is distinct when it is the first one that folds like itself. -/
lemma mem_distinctNames_iff {names : List String} {r : String} :
    r ∈ distinctNames names ↔ names.find? (fun n => fold n == fold r) = some r := by
  rw [← find?_distinctNames]
  constructor
  · intro hr
    cases hfind : (distinctNames names).find? fun n => fold n == fold r with
    | none => exact absurd (beq_self_eq_true _) (List.find?_eq_none.mp hfind r hr)
    | some n =>
        have hfold : fold n = fold r := by simpa using List.find?_some hfind
        rw [eq_of_fold_eq (pairwise_distinctNames names) (List.mem_of_find?_eq_some hfind) hr hfold]
  · exact List.mem_of_find?_eq_some

namespace Entry

variable {e : Entry} {q : String} {vs : List RawValue} {ps : List (String × List RawValue)}

/-! ### One insertion -/

/-- The names of the attributes, in their first spellings. -/
def names (e : Entry) : List String :=
  e.toList.map (·.1)

/-- All values of an entry, attribute by attribute. -/
def values (e : Entry) : List RawValue :=
  e.toList.flatMap (·.2)

/-- The key of an attribute is its folded name, and no key is there twice. -/
structure Keyed (e : Entry) : Prop where
  keys : ∀ a ∈ e.attributes.toList, a.1 = fold a.2.1
  distinct : e.attributes.keys.Nodup

/-- **What an insertion can do**: put values behind those of its name, or add an attribute. -/
lemma insert_cases (e : Entry) (name : String) (vs : List RawValue) :
    (∃ first old before after, e.get? name = some old
        ∧ e.attributes.toList = before ++ (fold name, first, old) :: after
        ∧ (e.insert name vs).attributes.toList
          = before ++ (fold name, first, old ++ vs) :: after)
      ∨ fold name ∉ e.attributes.keys
        ∧ (e.insert name vs).attributes.toList
          = e.attributes.toList ++ [(fold name, name, vs)] := by
  rw [get?, insert]
  cases h : e.attributes.get? (fold name) with
  | some p =>
      obtain ⟨first, old⟩ := p
      obtain ⟨before, after, hbefore, hafter⟩ :=
        OrderedMap.exists_insert_eq h (first, old ++ vs)
      exact .inl ⟨first, old, before, after, rfl, hbefore, hafter⟩
  | none =>
      have hkey := OrderedMap.get?_eq_none_iff.mp h
      exact .inr ⟨hkey, OrderedMap.toList_insert hkey _⟩

/-- An insertion puts values behind those of its name, and leaves those of the others. -/
lemma get?_insert (e : Entry) (name q : String) (vs : List RawValue) :
    (e.insert name vs).get? q
      = if fold q = fold name then some ((e.get? name).getD [] ++ vs) else e.get? q := by
  rw [get?, get?, get?, insert]
  dsimp only
  rw [OrderedMap.get?_insert]
  by_cases hq : fold q = fold name
  · rw [if_pos hq, if_pos hq]
    cases e.attributes.get? (fold name) <;> rfl
  · rw [if_neg hq, if_neg hq]

/-- An insertion adds its values to those that there are, and loses none. -/
lemma values_insert_perm (e : Entry) (name : String) (vs : List RawValue) :
    (e.insert name vs).values.Perm (e.values ++ vs) := by
  rw [values, values, toList, toList]
  rcases insert_cases e name vs with ⟨first, old, before, after, -, hold, hnew⟩ | ⟨-, hnew⟩
  · rw [hold, hnew]
    simp only [List.map_append, List.map_cons, List.flatMap_append, List.flatMap_cons,
      List.append_assoc]
    exact (List.perm_append_comm.append_left old).append_left _
  · rw [hnew]
    simp

/-- An insertion keeps the keys in step with the names. -/
lemma Keyed.insert (h : e.Keyed) (name : String) (vs : List RawValue) :
    (e.insert name vs).Keyed := by
  obtain ⟨hkeys, hdistinct⟩ := h
  rw [OrderedMap.keys] at hdistinct
  rcases insert_cases e name vs with ⟨first, old, before, after, -, hold, hnew⟩ | ⟨hkey, hnew⟩
  · rw [hold] at hkeys hdistinct
    constructor
    · rw [hnew]
      simp only [List.forall_mem_append, List.forall_mem_cons] at hkeys ⊢
      exact hkeys
    · rw [OrderedMap.keys, hnew]
      simpa using hdistinct
  · constructor
    · rw [hnew, List.forall_mem_append, List.forall_mem_singleton]
      exact ⟨hkeys, rfl⟩
    · rw [OrderedMap.keys, hnew, List.map_append, List.map_singleton]
      exact hdistinct.append (List.nodup_singleton _) (List.disjoint_singleton.mpr hkey)

/-- The keys of an entry are its folded names. -/
lemma Keyed.keys_eq (h : e.Keyed) : e.attributes.keys = e.names.map fold := by
  rw [OrderedMap.keys, names, toList, List.map_map, List.map_map]
  exact List.map_congr_left h.keys

/-- An entry is what its attributes are, each under its folded name. -/
lemma Keyed.attributes_eq (h : e.Keyed) :
    e.attributes = ⟨e.toList.map fun p => (fold p.1, p)⟩ := by
  have hpairs : e.attributes.toList = e.toList.map fun p => (fold p.1, p) := by
    rw [toList, List.map_map]
    exact (List.map_id _).symm.trans
      (List.map_congr_left fun a ha => Prod.ext (h.keys a ha) rfl)
  rw [← hpairs]

/-- Entries whose keys are their folded names are equal when their attributes are. -/
lemma Keyed.ext {e e' : Entry} (h : e.Keyed) (h' : e'.Keyed) (hdn : e.dn = e'.dn)
    (hlist : e.toList = e'.toList) : e = e' := by
  have hattributes : e.attributes = e'.attributes := by
    rw [h.attributes_eq, h'.attributes_eq, hlist]
  cases e
  cases e'
  rw [mk.injEq]
  exact ⟨hdn, hattributes⟩

/-- A name leads to the values of the attribute that folds like it. -/
lemma Keyed.get?_eq_some_iff (h : e.Keyed) :
    e.get? q = some vs ↔ ∃ n, fold n = fold q ∧ (n, vs) ∈ e.toList := by
  simp only [get?, Option.map_eq_some_iff, OrderedMap.get?_eq_some_iff h.distinct]
  rw [h.attributes_eq]
  simp only [List.mem_map, Prod.mk.injEq]
  constructor
  · rintro ⟨⟨n, _⟩, ⟨p, hp, hfold, rfl⟩, rfl⟩
    exact ⟨n, hfold, hp⟩
  · rintro ⟨n, hfold, hmem⟩
    exact ⟨_, ⟨_, hmem, hfold, rfl⟩, rfl⟩

/-- A name that folds like no other one goes to the end, and the others stay. -/
lemma Keyed.names_insert (h : e.Keyed) (name : String) (vs : List RawValue) :
    (e.insert name vs).names
      = if ∃ n ∈ e.names, fold n = fold name then e.names else e.names ++ [name] := by
  have hmem : (∃ n ∈ e.names, fold n = fold name) ↔ fold name ∈ e.attributes.keys := by
    rw [h.keys_eq, List.mem_map]
  simp only [hmem]
  rw [names, names, toList, toList]
  rcases insert_cases e name vs with ⟨first, old, before, after, -, hold, hnew⟩ | ⟨hkey, hnew⟩
  · rw [if_pos, hold, hnew]
    · simp
    · rw [OrderedMap.keys, hold]
      simp
  · rw [if_neg hkey, hnew]
    simp

/-- The attributes are their names, each with the values that it leads to. -/
lemma Keyed.toList_eq (h : e.Keyed) :
    e.toList = e.names.map fun n => (n, (e.get? n).getD []) := by
  rw [names, List.map_map]
  refine (List.map_id _).symm.trans (List.map_congr_left fun p hp => ?_)
  have hget : e.get? p.1 = some p.2 := h.get?_eq_some_iff.mpr ⟨p.1, rfl, hp⟩
  rw [Function.comp_apply, hget]
  rfl

/-! ### Insertions one after another -/

/-- What a list of insertions gives to a name, in their order. -/
def valuesOf (q : String) (ps : List (String × List RawValue)) : List RawValue :=
  (ps.filter fun p => fold p.1 == fold q).flatMap (·.2)

/-- One more insertion gives its values to the names that fold like its own. -/
@[simp] lemma valuesOf_concat (q : String) (ps : List (String × List RawValue))
    (p : String × List RawValue) :
    valuesOf q (ps ++ [p]) = valuesOf q ps ++ if fold p.1 = fold q then p.2 else [] := by
  rw [valuesOf, valuesOf, List.filter_append, List.flatMap_append]
  by_cases h : fold p.1 = fold q <;> simp [h]

/-- Names that fold alike are given the same. -/
lemma valuesOf_congr {q r : String} (h : fold q = fold r) (ps : List (String × List RawValue)) :
    valuesOf q ps = valuesOf r ps := by
  rw [valuesOf, h, ← valuesOf]

/-- Nothing is left when no name folds like the given one. -/
lemma filter_eq_nil {α : Type} {ps : List (String × α)} (h : ∀ p ∈ ps, fold p.1 ≠ fold q) :
    ps.filter (fun p => fold p.1 == fold q) = [] :=
  List.filter_eq_nil_iff.mpr fun p hp heq => h p hp (beq_iff_eq.mp heq)

/-- A name that no insertion has is given nothing. -/
lemma valuesOf_eq_nil (h : ¬ ∃ p ∈ ps, fold p.1 = fold q) : valuesOf q ps = [] := by
  rw [valuesOf, filter_eq_nil fun p hp heq => h ⟨p, hp, heq⟩, List.flatMap_nil]

/-- The insertions are made in order. -/
@[simp] lemma insertAll_concat (e : Entry) (ps : List (String × List RawValue))
    (p : String × List RawValue) :
    e.insertAll (ps ++ [p]) = (e.insertAll ps).insert p.1 p.2 := by
  rw [insertAll, List.foldl_append, ← insertAll]
  rfl

/-- The keys of an entry of pairs are its folded names. -/
lemma keyed_ofPairs (ps : List (String × List RawValue)) : (ofPairs ps).Keyed := by
  induction ps using List.reverseRecOn with
  | nil => exact ⟨nofun, List.nodup_nil⟩
  | append_singleton ps p ih =>
      rw [ofPairs, insertAll_concat]
      exact ih.insert p.1 p.2

/-- A name leads to what the pairs give to it, if some pair has it. -/
lemma get?_ofPairs (q : String) (ps : List (String × List RawValue)) :
    (ofPairs ps).get? q = if ∃ p ∈ ps, fold p.1 = fold q then some (valuesOf q ps) else none := by
  induction ps using List.reverseRecOn generalizing q with
  | nil => rfl
  | append_singleton ps p ih =>
      rw [ofPairs, insertAll_concat, ← ofPairs, get?_insert, valuesOf_concat]
      by_cases hp : fold p.1 = fold q
      · have hold : ((ofPairs ps).get? p.1).getD [] = valuesOf q ps := by
          rw [ih p.1, ← valuesOf_congr hp]
          split
          · rfl
          · rename_i hnone
            rw [valuesOf_eq_nil hnone]
            rfl
        rw [if_pos hp.symm, hold, if_pos ⟨p, by simp, hp⟩, if_pos hp]
      · have hiff : (∃ p' ∈ ps, fold p'.1 = fold q) ↔ ∃ p' ∈ ps ++ [p], fold p'.1 = fold q := by
          simp [or_and_right, exists_or, hp]
        rw [if_neg (Ne.symm hp), if_neg hp, List.append_nil, ih q]
        exact if_congr hiff rfl rfl

/-- The names of an entry of pairs are theirs, each in its first spelling. -/
lemma names_ofPairs (ps : List (String × List RawValue)) :
    (ofPairs ps).names = distinctNames (ps.map (·.1)) := by
  induction ps using List.reverseRecOn with
  | nil => rfl
  | append_singleton ps p ih =>
      have hiff : (∃ n ∈ distinctNames (ps.map (·.1)), fold n = fold p.1)
          ↔ ∃ n ∈ ps.map (·.1), fold n = fold p.1 := by
        constructor
        · rintro ⟨n, hn, hfold⟩
          exact ⟨n, mem_of_mem_distinctNames hn, hfold⟩
        · rintro ⟨n, hn, hfold⟩
          obtain ⟨r, hr, hrn⟩ := exists_mem_distinctNames hn
          exact ⟨r, hr, hrn.trans hfold⟩
      rw [ofPairs, insertAll_concat, ← ofPairs, (keyed_ofPairs ps).names_insert, ih,
        List.map_append, List.map_singleton, distinctNames_concat]
      simp only [hiff]

/-- **The attributes of an entry of pairs**: the names in their first spellings, each with all that
the pairs give to it. -/
theorem toList_ofPairs (ps : List (String × List RawValue)) :
    (ofPairs ps).toList = (distinctNames (ps.map (·.1))).map fun n => (n, valuesOf n ps) := by
  rw [(keyed_ofPairs ps).toList_eq, names_ofPairs]
  refine List.map_congr_left fun n hn => ?_
  obtain ⟨p, hp, hpn⟩ := List.mem_map.mp (mem_of_mem_distinctNames hn)
  rw [get?_ofPairs, if_pos ⟨p, hp, congrArg fold hpn⟩, Option.getD_some]

/-- An attribute of an entry of pairs: the first pair of its name, and what those behind it give. -/
lemma mem_toList_ofPairs {n : String} : (n, vs) ∈ (ofPairs ps).toList
    ↔ ∃ w rest, ps.filter (fun p => fold p.1 == fold n) = (n, w) :: rest
      ∧ vs = w ++ rest.flatMap (·.2) := by
  have hfirst : (ps.map (·.1)).find? (fun r => fold r == fold n)
      = (ps.filter fun p => fold p.1 == fold n).head?.map (·.1) := by
    rw [List.find?_map, List.head?_filter]
    rfl
  have hpair : (n, vs) ∈ (ofPairs ps).toList
      ↔ n ∈ distinctNames (ps.map (·.1)) ∧ vs = valuesOf n ps := by
    rw [toList_ofPairs, List.mem_map]
    constructor
    · rintro ⟨r, hr, heq⟩
      obtain ⟨rfl, rfl⟩ := Prod.mk.inj heq
      exact ⟨hr, rfl⟩
    · rintro ⟨hn, rfl⟩
      exact ⟨n, hn, rfl⟩
  rw [hpair, mem_distinctNames_iff, hfirst, valuesOf]
  cases ps.filter fun p => fold p.1 == fold n with
  | nil => exact iff_of_false (fun h => by cases h.1) (by rintro ⟨_, _, h, -⟩; cases h)
  | cons p rest =>
      constructor
      · rintro ⟨hn, rfl⟩
        obtain rfl : p.1 = n := Option.some.inj hn
        exact ⟨p.2, rest, rfl, rfl⟩
      · rintro ⟨w, rest', heq, rfl⟩
        obtain ⟨rfl, rfl⟩ := List.cons.inj heq
        exact ⟨rfl, rfl⟩

/-- An entry of pairs has all values of the pairs, and no others. -/
lemma values_ofPairs_perm (ps : List (String × List RawValue)) :
    (ofPairs ps).values.Perm (ps.flatMap (·.2)) := by
  induction ps using List.reverseRecOn with
  | nil => exact .nil
  | append_singleton ps p ih =>
      simp only [ofPairs, insertAll_concat, List.flatMap_append, List.flatMap_singleton]
      exact (values_insert_perm _ p.1 p.2).trans (ih.append_right p.2)

/-- An entry of pairs has as many attributes as the pairs have names beyond their case. -/
lemma size_ofPairs (ps : List (String × List RawValue)) :
    (ofPairs ps).size = (ps.map fun p => fold p.1).toFinset.card := by
  have hkeys := (keyed_ofPairs ps).keys_eq
  have hnodup := (keyed_ofPairs ps).distinct
  rw [hkeys, names_ofPairs] at hnodup
  have hsame : ((distinctNames (ps.map (·.1))).map fold).toFinset
      = (ps.map fun p => fold p.1).toFinset := by
    ext k
    rw [List.mem_toFinset, List.mem_toFinset, List.mem_map, List.mem_map]
    constructor
    · rintro ⟨n, hn, rfl⟩
      obtain ⟨p, hp, rfl⟩ := List.mem_map.mp (mem_of_mem_distinctNames hn)
      exact ⟨p, hp, rfl⟩
    · rintro ⟨p, hp, rfl⟩
      exact exists_mem_distinctNames (List.mem_map_of_mem hp)
  calc (ofPairs ps).size = (ofPairs ps).attributes.keys.length := (List.length_map _).symm
    _ = (ps.map fun p => fold p.1).toFinset.card := by
        rw [hkeys, names_ofPairs, ← hsame, List.toFinset_card_of_nodup hnodup]

end Entry

end DirectoryLens
