/-
Entries as they are made.

* `Entry.Built`: an entry that is made of pairs, of counted values or of nothing, and the insertions
  that went into it then and since;
* `Entry.cut`: counted values without those beyond their count;
* `Entry.normalized_ofPairs`: what is left of an entry without its bookkeeping is the entry of the
  pairs without theirs;
* `Entry.built_multimap`: an entry is what its insertions are, merged by their folded names, and
  counted values come to those that are cut.
-/
import DirectoryLens.Proofs.Entry.Multimap

namespace DirectoryLens

open Text

namespace Entry

variable {e : Entry} {ps : List (String × List RawValue)}

/-- Names with values, each list of values without those beyond its count. -/
def cut (ts : List (String × Nat × List RawValue)) : List (String × List RawValue) :=
  ts.map fun t => (t.1, t.2.2.take t.2.1)

/-- The pairs whose names are no bookkeeping. -/
def withoutBookkeeping (ps : List (String × List RawValue)) : List (String × List RawValue) :=
  ps.filter fun p => !isBookkeeping p.1

/-- The entries that are made, each with the insertions that made it, in their order. Of counted
values those within their count are inserted, and bookkeeping is not. -/
inductive Built : Entry → List (String × List RawValue) → Prop
  | empty : Built .empty []
  | pairs (ps : List (String × List RawValue)) : Built (.ofPairs ps) ps
  | counted (dn : Option String) (ts : List (String × Nat × List RawValue)) :
      Built (.ofCounted dn ts) (withoutBookkeeping (cut ts))
  | named {e : Entry} {ps : List (String × List RawValue)} (dn : Option String) :
      Built e ps → Built { e with dn } ps
  | insert {e : Entry} {ps : List (String × List RawValue)} (name : String)
      (vs : List RawValue) : Built e ps → Built (e.insert name vs) (ps ++ [(name, vs)])

/-! ### Attributes -/

/-- The attributes of an entry of counted values are those of the values that are cut. -/
lemma attributes_ofCounted (dn : Option String) (ts : List (String × Nat × List RawValue)) :
    (ofCounted dn ts).attributes = (ofPairs (withoutBookkeeping (cut ts))).attributes := by
  rw [ofCounted, withoutBookkeeping, cut, List.filter_map]
  rfl

/-- The attributes that an insertion makes depend on those that there are, and on nothing else. -/
lemma attributes_insert_congr {e e' : Entry} (h : e.attributes = e'.attributes) (name : String)
    (vs : List RawValue) : (e.insert name vs).attributes = (e'.insert name vs).attributes := by
  rw [insert, insert, h]

/-- An entry that is made has the attributes of its insertions. -/
lemma Built.attributes_eq (h : Built e ps) : e.attributes = (ofPairs ps).attributes := by
  induction h with
  | empty => rfl
  | pairs ps => rfl
  | counted dn ts => exact attributes_ofCounted dn ts
  | named dn _ ih => exact ih
  | insert name vs _ ih =>
      rw [ofPairs, insertAll_concat, ← ofPairs]
      exact attributes_insert_congr ih name vs

/-! ### Bookkeeping -/

/-- Insertions of bookkeeping give nothing to a name that is none. -/
lemma valuesOf_withoutBookkeeping {n : String} (hn : isBookkeeping n = false)
    (ps : List (String × List RawValue)) : valuesOf n (withoutBookkeeping ps) = valuesOf n ps := by
  rw [valuesOf, valuesOf, withoutBookkeeping, List.filter_filter]
  congr 1
  refine List.filter_congr fun p _ => ?_
  cases h : fold p.1 == fold n with
  | false => rfl
  | true =>
      rw [isBookkeeping_eq_of_fold_eq (beq_iff_eq.mp h), hn]
      rfl

/-- **What is left of an entry without its bookkeeping** is the entry of the pairs without
theirs. -/
lemma normalized_ofPairs (ps : List (String × List RawValue)) :
    (ofPairs ps).normalized = (ofPairs (withoutBookkeeping ps)).toList := by
  have hnames : (withoutBookkeeping ps).map (·.1)
      = (ps.map (·.1)).filter fun n => !isBookkeeping n := by
    rw [withoutBookkeeping, List.filter_map]
    rfl
  rw [normalized, toList_ofPairs, toList_ofPairs, hnames,
    distinctNames_filter fun h => by rw [isBookkeeping_eq_of_fold_eq h], List.filter_map]
  refine List.map_congr_left fun n hn => ?_
  have hplain : isBookkeeping n = false := by simpa using (List.mem_filter.mp hn).2
  rw [valuesOf_withoutBookkeeping hplain]

/-- Counted values come to those that are cut, bookkeeping apart. -/
lemma normalized_ofCounted (dn : Option String) (ts : List (String × Nat × List RawValue)) :
    (ofCounted dn ts).normalized = (ofPairs (cut ts)).normalized := by
  have htwice : withoutBookkeeping (withoutBookkeeping (cut ts)) = withoutBookkeeping (cut ts) := by
    rw [withoutBookkeeping, withoutBookkeeping, List.filter_filter]
    simp only [Bool.and_self]
  calc (ofCounted dn ts).normalized
      = (ofPairs (withoutBookkeeping (cut ts))).normalized := by
        rw [normalized, toList, attributes_ofCounted, ← toList, ← normalized]
    _ = (ofPairs (cut ts)).normalized := by
        rw [normalized_ofPairs, htwice, ← normalized_ofPairs]

/-- Entries are hydrated alike when they have one distinguished name and the same attributes,
bookkeeping apart. -/
lemma hydrate_congr {e e' : Entry} (hdn : e.dn = e'.dn) (h : e.normalized = e'.normalized)
    (hydrator : Hydrator) : hydrator.hydrate e = hydrator.hydrate e' := by
  simp only [Hydrator.hydrate, Hydrator.passThrough, hdn, h]

/-! ### All entries that are made -/

/-- **An entry is a map of several values under names that are compared beyond their case.** A name
leads to the values of all insertions that have it, in their order, and to nothing when there is
none; the attributes are the names in the order and spelling in which they first came, as many as
there are folded names; and no value is lost or doubled. Counted values come to the pairs whose
values are cut to their counts: the attributes are the same, bookkeeping apart, and they are
hydrated alike, with a schema or without. -/
theorem built_multimap :
    (∀ (e : Entry) (ps : List (String × List RawValue)), Built e ps →
      (∀ q, e.get? q = if ∃ p ∈ ps, fold p.1 = fold q then some (valuesOf q ps) else none)
      ∧ e.toList = (distinctNames (ps.map (·.1))).map (fun n => (n, valuesOf n ps))
      ∧ e.size = (ps.map fun p => fold p.1).toFinset.card
      ∧ (e.toList.flatMap (·.2)).Perm (ps.flatMap (·.2)))
    ∧ ∀ (dn : Option String) (ts : List (String × Nat × List RawValue)),
      (ofCounted dn ts).normalized = (ofPairs (cut ts)).normalized
      ∧ ∀ h : Hydrator, h.hydrate (ofCounted dn ts) = h.hydrate { ofPairs (cut ts) with dn } := by
  refine ⟨fun e ps hbuilt => ?_, fun dn ts => ⟨normalized_ofCounted dn ts, fun h => ?_⟩⟩
  · have hattributes := hbuilt.attributes_eq
    have hlist : e.toList = (ofPairs ps).toList := by rw [toList, hattributes, ← toList]
    refine ⟨fun q => ?_, ?_, ?_, ?_⟩
    · rw [get?, hattributes, ← get?, get?_ofPairs]
    · rw [hlist, toList_ofPairs]
    · rw [size, hattributes, ← size, size_ofPairs]
    · rw [hlist]
      exact values_ofPairs_perm ps
  · refine hydrate_congr ?_ ?_ h
    · rfl
    · exact normalized_ofCounted dn ts

/-- Counted values of two names and of bookkeeping, one name then inserted again in capitals. -/
theorem built_multimap_counted :
    ∃ e : Entry, Built e [("cn", [.text "a"]), ("mail", []), ("CN", [.text "c"])]
      ∧ e.get? "Cn" = some [.text "a", .text "c"]
      ∧ e.get? "count" = none
      ∧ e.toList = [("cn", [.text "a", .text "c"]), ("mail", [])]
      ∧ e.size = 2 := by
  have hbuilt : Built _ [("cn", [.text "a"]), ("mail", []), ("CN", [.text "c"])] :=
    (Built.counted none [("cn", 1, [.text "a", .text "b"]), ("count", 1, [.text "2"]),
      ("mail", 0, [.text "m"])]).insert "CN" [.text "c"]
  obtain ⟨hget, hlist, hsize, -⟩ := built_multimap.1 _ _ hbuilt
  refine ⟨_, hbuilt, (hget "Cn").trans ?_, (hget "count").trans ?_, hlist.trans ?_,
    hsize.trans ?_⟩
  · decide
  · decide
  · decide
  · decide

end Entry

end DirectoryLens
