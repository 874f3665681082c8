/-
Entries of search results, whose attributes come in no order.

* `filter_mergeSort`: sorting leaves what has one key in its order;
* `Entry.Found`: what there is under a name in a search result;
* `Entry.mem_toList_ofSearch`: that is what the entry has;
* `Entry.pairwise_toList_ofSearch`: its attributes stand in the order of their folded names;
* `Entry.ofSearch_of_perm`: so it is one entry, in whatever order the attributes come.
-/
import DirectoryLens.Proofs.Entry.Multimap

namespace DirectoryLens

open Text

/-! ### Sorting by folded names -/

section Sorting

variable {α : Type} (key : α → String)

/-- Keys are compared transitively. -/
lemma key_le_trans (a b c : α) (hab : decide (key a ≤ key b) = true)
    (hbc : decide (key b ≤ key c) = true) : decide (key a ≤ key c) = true :=
  decide_eq_true (String.le_trans (of_decide_eq_true hab) (of_decide_eq_true hbc))

/-- Any two keys are compared. -/
lemma key_le_total (a b : α) : (decide (key a ≤ key b) || decide (key b ≤ key a)) = true := by
  rw [Bool.or_eq_true, decide_eq_true_eq, decide_eq_true_eq]
  exact String.le_total _ _

/-- Sorting leaves what has one key in its order. -/
lemma filter_mergeSort (k : String) (as : List α) :
    (as.mergeSort fun a b => key a ≤ key b).filter (fun a => key a == k)
      = as.filter fun a => key a == k := by
  have hkey : ∀ a ∈ as.filter (fun a => key a == k), key a = k := fun a ha =>
    beq_iff_eq.mp (List.mem_filter.mp ha).2
  have hequal : (as.filter fun a => key a == k).Pairwise fun a b =>
      decide (key a ≤ key b) = true := by
    refine List.pairwise_of_forall_mem_list fun a ha b hb => decide_eq_true ?_
    have heq : key a = key b := (hkey a ha).trans (hkey b hb).symm
    exact heq ▸ String.le_refl (key a)
  have hsublist := (List.sublist_mergeSort (key_le_trans key) (key_le_total key) hequal
    List.filter_sublist).filter fun a => key a == k
  rw [List.filter_filter] at hsublist
  simp only [Bool.and_self] at hsublist
  refine (hsublist.eq_of_length ?_).symm
  exact ((List.mergeSort_perm as _).filter _).length_eq.symm

end Sorting

namespace Entry

variable {texts : OrderedMap (List String)} {binaries : OrderedMap (List Octets)}

/-! ### What a search result has -/

/-- What there is under a name in a search result: texts, octets, or texts and octets behind them,
under the name of the texts. -/
inductive Found (texts : OrderedMap (List String)) (binaries : OrderedMap (List Octets)) :
    String × List RawValue → Prop
  | texts {x : String} {ts : List String} (ht : (x, ts) ∈ texts.toList)
      (hnone : ∀ p ∈ binaries.toList, fold p.1 ≠ fold x) :
      Found texts binaries (x, ts.map .text)
  | binaries {x : String} {bs : List Octets} (hb : (x, bs) ∈ binaries.toList)
      (hnone : ∀ p ∈ texts.toList, fold p.1 ≠ fold x) :
      Found texts binaries (x, bs.map .binary)
  | both {x y : String} {ts : List String} {bs : List Octets} (ht : (x, ts) ∈ texts.toList)
      (hb : (y, bs) ∈ binaries.toList) (hfold : fold y = fold x) :
      Found texts binaries (x, ts.map .text ++ bs.map .binary)

/-- The names of a map with their raw values, texts before octets. -/
def searchPairs (texts : OrderedMap (List String)) (binaries : OrderedMap (List Octets)) :
    List (String × List RawValue) :=
  texts.toList.map (fun p => (p.1, p.2.map .text))
    ++ binaries.toList.map fun p => (p.1, p.2.map .binary)

/-- The names of a search result in the order of their folded forms. -/
def sortedPairs (texts : OrderedMap (List String)) (binaries : OrderedMap (List Octets)) :
    List (String × List RawValue) :=
  (searchPairs texts binaries).mergeSort fun a b => fold a.1 ≤ fold b.1

/-- The attributes of a search result are those of its pairs when they are sorted. -/
lemma attributes_ofSearch (dn : String) (texts : OrderedMap (List String))
    (binaries : OrderedMap (List Octets)) :
    (ofSearch dn texts binaries).attributes = (ofPairs (sortedPairs texts binaries)).attributes :=
  rfl

/-- The keys of a search result are its folded names. -/
lemma keyed_ofSearch (dn : String) (texts : OrderedMap (List String))
    (binaries : OrderedMap (List Octets)) : (ofSearch dn texts binaries).Keyed :=
  have hkeyed := keyed_ofPairs (sortedPairs texts binaries)
  ⟨hkeyed.keys, hkeyed.distinct⟩

/-- Of the pairs those of one name are the texts, and behind them the octets, that it has. -/
lemma filter_sortedPairs (texts : OrderedMap (List String)) (binaries : OrderedMap (List Octets))
    (q : String) : (sortedPairs texts binaries).filter (fun p => fold p.1 == fold q)
      = (texts.toList.filter fun p => fold p.1 == fold q).map (fun p => (p.1, p.2.map .text))
        ++ (binaries.toList.filter fun p => fold p.1 == fold q).map
          fun p => (p.1, p.2.map .binary) := by
  refine (filter_mergeSort (fun p : String × List RawValue => fold p.1) (fold q) _).trans ?_
  rw [searchPairs, List.filter_append, List.filter_map, List.filter_map]
  rfl

/-- Of names that differ beyond their case one at most folds like a given name. -/
lemma filter_eq_singleton {α : Type} {m : OrderedMap α} {q : String} {p : String × α}
    (h : (m.keys.map fold).Nodup) (hp : p ∈ m.toList) (hfold : fold p.1 = fold q) :
    m.toList.filter (fun p => fold p.1 == fold q) = [p] := by
  rw [OrderedMap.keys, List.map_map] at h
  refine List.perm_singleton.mp
    ((List.perm_ext_iff_of_nodup (h.of_map.filter _) (List.nodup_singleton p)).mpr fun r => ?_)
  rw [List.mem_filter, List.mem_singleton, beq_iff_eq]
  constructor
  · rintro ⟨hr, hrq⟩
    exact List.inj_on_of_nodup_map h hr hp (hrq.trans hfold.symm)
  · rintro rfl
    exact ⟨hp, hfold⟩

/-- The pairs of one name are what there is under it. -/
lemma found_of_filter_eq_cons (ht : (texts.keys.map fold).Nodup)
    (hb : (binaries.keys.map fold).Nodup) {n : String} {vs : List RawValue}
    {rest : List (String × List RawValue)}
    (heq : (sortedPairs texts binaries).filter (fun p => fold p.1 == fold n) = (n, vs) :: rest) :
    Found texts binaries (n, vs ++ rest.flatMap (·.2)) := by
  rw [filter_sortedPairs] at heq
  by_cases htexts : ∃ p ∈ texts.toList, fold p.1 = fold n
  · obtain ⟨⟨x, ts⟩, hx, hxn⟩ := htexts
    rw [filter_eq_singleton ht hx hxn, List.map_singleton, List.singleton_append,
      List.cons.injEq, Prod.mk.injEq] at heq
    obtain ⟨⟨rfl, rfl⟩, rfl⟩ := heq
    by_cases hbinaries : ∃ p ∈ binaries.toList, fold p.1 = fold x
    · obtain ⟨⟨y, bs⟩, hy, hyx⟩ := hbinaries
      rw [filter_eq_singleton hb hy hyx, List.map_singleton, List.flatMap_singleton]
      exact .both hx hy hyx
    · push Not at hbinaries
      rw [filter_eq_nil hbinaries, List.map_nil, List.flatMap_nil, List.append_nil]
      exact .texts hx hbinaries
  · push Not at htexts
    rw [filter_eq_nil htexts, List.map_nil, List.nil_append] at heq
    by_cases hbinaries : ∃ p ∈ binaries.toList, fold p.1 = fold n
    · obtain ⟨⟨y, bs⟩, hy, hyn⟩ := hbinaries
      rw [filter_eq_singleton hb hy hyn, List.map_singleton, List.cons.injEq,
        Prod.mk.injEq] at heq
      obtain ⟨⟨rfl, rfl⟩, rfl⟩ := heq
      rw [List.flatMap_nil, List.append_nil]
      exact .binaries hy htexts
    · push Not at hbinaries
      rw [filter_eq_nil hbinaries] at heq
      cases heq

/-- What there is under a name are the pairs of that name. -/
lemma Found.exists_filter_eq_cons (ht : (texts.keys.map fold).Nodup)
    (hb : (binaries.keys.map fold).Nodup) {p : String × List RawValue}
    (h : Found texts binaries p) :
    ∃ vs rest, (sortedPairs texts binaries).filter (fun q => fold q.1 == fold p.1)
        = (p.1, vs) :: rest
      ∧ p.2 = vs ++ rest.flatMap (·.2) := by
  rw [filter_sortedPairs]
  cases h with
  | texts hx hnone =>
      rw [filter_eq_singleton ht hx rfl, filter_eq_nil hnone]
      exact ⟨_, _, rfl, (List.append_nil _).symm⟩
  | binaries hy hnone =>
      rw [filter_eq_nil hnone, filter_eq_singleton hb hy rfl]
      exact ⟨_, _, rfl, (List.append_nil _).symm⟩
  | both hx hy hyx =>
      rw [filter_eq_singleton ht hx rfl, filter_eq_singleton hb hy hyx]
      exact ⟨_, [_], rfl, by rw [List.flatMap_singleton]⟩

/-- **The attributes of a search result** are what there is under its names. -/
theorem mem_toList_ofSearch (dn : String) (ht : (texts.keys.map fold).Nodup)
    (hb : (binaries.keys.map fold).Nodup) {p : String × List RawValue} :
    p ∈ (ofSearch dn texts binaries).toList ↔ Found texts binaries p := by
  rw [toList, attributes_ofSearch, ← toList, mem_toList_ofPairs]
  constructor
  · rintro ⟨vs, rest, heq, hvs⟩
    have hfound := found_of_filter_eq_cons ht hb heq
    rwa [← hvs] at hfound
  · exact Found.exists_filter_eq_cons ht hb

/-- **The attributes of a search result stand in the order of their folded names**, which
differ. -/
theorem pairwise_toList_ofSearch (dn : String) (texts : OrderedMap (List String))
    (binaries : OrderedMap (List Octets)) :
    (ofSearch dn texts binaries).toList.Pairwise fun a b => fold a.1 < fold b.1 := by
  have hsorted : ((sortedPairs texts binaries).map (·.1)).Pairwise fun a b => fold a ≤ fold b := by
    have hkeys := List.pairwise_mergeSort (key_le_trans fun p : String × List RawValue => fold p.1)
      (key_le_total _) (searchPairs texts binaries)
    exact List.pairwise_map.mpr (hkeys.imp of_decide_eq_true)
  have hnames := (hsorted.sublist (distinctNames_sublist _)).and
    (pairwise_distinctNames ((sortedPairs texts binaries).map (·.1)))
  rw [toList, attributes_ofSearch, ← toList, toList_ofPairs, List.pairwise_map]
  exact hnames.imp fun h => String.not_le.mp fun hle => h.2 (String.le_antisymm h.1 hle)

/-! ### In whatever order the attributes come -/

/-- There is the same in a search result in whatever order its attributes come. -/
lemma found_of_perm {texts' : OrderedMap (List String)} {binaries' : OrderedMap (List Octets)}
    (ht : texts'.toList.Perm texts.toList) (hb : binaries'.toList.Perm binaries.toList)
    {p : String × List RawValue} (h : Found texts' binaries' p) : Found texts binaries p := by
  cases h with
  | texts hx hnone => exact .texts (ht.mem_iff.mp hx) fun p hp => hnone p (hb.mem_iff.mpr hp)
  | binaries hy hnone => exact .binaries (hb.mem_iff.mp hy) fun p hp => hnone p (ht.mem_iff.mpr hp)
  | both hx hy hfold => exact .both (ht.mem_iff.mp hx) (hb.mem_iff.mp hy) hfold

/-- Attributes that stand in the order of their folded names are not there twice. -/
lemma nodup_of_pairwise {ps : List (String × List RawValue)}
    (h : ps.Pairwise fun a b => fold a.1 < fold b.1) : ps.Nodup := by
  refine h.imp fun {a b} hlt heq => ?_
  rw [heq] at hlt
  exact String.lt_irrefl _ hlt

/-- **A search result is one entry in whatever order its attributes come**, if neither its texts
nor its octets have a name twice beyond case. The attributes stand in the order of their folded
names; each has the values that there are under its name, texts before octets, in the spelling of
the texts if there are any; and a name leads to these values. -/
theorem ofSearch_of_perm (dn : String) (texts : OrderedMap (List String))
    (binaries : OrderedMap (List Octets)) (ht : (texts.keys.map fold).Nodup)
    (hb : (binaries.keys.map fold).Nodup) :
    (∀ (texts' : OrderedMap (List String)) (binaries' : OrderedMap (List Octets)),
      texts'.toList.Perm texts.toList → binaries'.toList.Perm binaries.toList →
        ofSearch dn texts' binaries' = ofSearch dn texts binaries)
    ∧ (ofSearch dn texts binaries).dn = some dn
    ∧ (ofSearch dn texts binaries).toList.Pairwise (fun a b => fold a.1 < fold b.1)
    ∧ (∀ p, p ∈ (ofSearch dn texts binaries).toList ↔ Found texts binaries p)
    ∧ ∀ q vs, (ofSearch dn texts binaries).get? q = some vs
      ↔ ∃ n, fold n = fold q ∧ Found texts binaries (n, vs) := by
  have hmem : ∀ p, p ∈ (ofSearch dn texts binaries).toList ↔ Found texts binaries p := fun p =>
    mem_toList_ofSearch dn ht hb
  have hpairwise := pairwise_toList_ofSearch dn texts binaries
  refine ⟨fun texts' binaries' hpt hpb => ?_, rfl, hpairwise, hmem, fun q vs => ?_⟩
  · have hpairwise' := pairwise_toList_ofSearch dn texts' binaries'
    have ht' : (texts'.keys.map fold).Nodup := ((hpt.map _).map fold).nodup_iff.mpr ht
    have hb' : (binaries'.keys.map fold).Nodup := ((hpb.map _).map fold).nodup_iff.mpr hb
    have hsame : (ofSearch dn texts' binaries').toList.Perm
        (ofSearch dn texts binaries).toList := by
      refine (List.perm_ext_iff_of_nodup (nodup_of_pairwise hpairwise')
        (nodup_of_pairwise hpairwise)).mpr fun p => ?_
      rw [mem_toList_ofSearch dn ht' hb', hmem]
      exact ⟨found_of_perm hpt hpb, found_of_perm hpt.symm hpb.symm⟩
    -- a strict order leaves one way to arrange the same attributes
    have hlist := hsame.eq_of_pairwise
      (fun a b _ _ hlt hgt => absurd (String.lt_trans hlt hgt) (String.lt_irrefl _))
      hpairwise' hpairwise
    exact (keyed_ofSearch dn texts' binaries').ext (keyed_ofSearch dn texts binaries) rfl hlist
  · rw [(keyed_ofSearch dn texts binaries).get?_eq_some_iff]
    exact exists_congr fun n => and_congr_right fun _ => hmem (n, vs)

/-- A search result whose texts and octets share a name in two spellings, and the same in the other
order. -/
theorem ofSearch_of_perm_shared :
    ofSearch "cn=j" ⟨[("CN", ["J"]), ("sn", ["D"])]⟩ ⟨[("guid", [[2]]), ("cn", [[1]])]⟩
        = ofSearch "cn=j" ⟨[("sn", ["D"]), ("CN", ["J"])]⟩ ⟨[("cn", [[1]]), ("guid", [[2]])]⟩
      ∧ ("CN", [.text "J", .binary [1]]) ∈ (ofSearch "cn=j" ⟨[("sn", ["D"]), ("CN", ["J"])]⟩
        ⟨[("cn", [[1]]), ("guid", [[2]])]⟩).toList := by
  obtain ⟨hperm, -, -, hmem, -⟩ := ofSearch_of_perm "cn=j" ⟨[("sn", ["D"]), ("CN", ["J"])]⟩
    ⟨[("cn", [[1]]), ("guid", [[2]])]⟩ (by decide) (by decide)
  refine ⟨hperm _ _ (.swap _ _ _) (.swap _ _ _), (hmem _).mpr ?_⟩
  have htext : ("CN", ["J"]) ∈ [("sn", ["D"]), ("CN", ["J"])] := by simp
  have hbinary : ("cn", [[1]]) ∈ ([("cn", [[1]]), ("guid", [[2]])] : List (String × List Octets)) :=
    List.mem_cons_self
  exact .both htext hbinary (by decide)

end Entry

end DirectoryLens
