/-
What hydration computes.

* `Hydrator.reading`, `Hydrator.addReading`: what is read for one name;
* `Hydrator.exists_collect_eq`: what is collected is what is read for the names that are assigned;
* `Hydrator.served`, `Hydrator.defaulted`: the names that attributes serve, and those that take
  their default values;
* `Hydrator.hydrate_eq`: an entry hydrated is what is read for the names served, one after another,
  and the default values behind it;
* `Hydrator.hydrate_eq_ok`, `Hydrator.exists_of_hydrate_eq_error`: when there is one, and why not.
-/
import DirectoryLens.Proofs.Entry.Assignment
import DirectoryLens.Proofs.Traversal

namespace DirectoryLens

open Text

namespace Hydrator

/-! ### Reading names -/

/-- What is read for a name in the values that serve it. -/
def reading (registry : Registry) (s : ObjectSchema) (a : String × List RawValue) :
    Except QueryError (String × Value) :=
  (a.1, ·) <$> convert registry s a.1 a.2

/-- What is read for a name stands under that name. -/
@[simp] lemma reading_eq_ok {registry : Registry} {s : ObjectSchema} {a : String × List RawValue}
    {b : String × Value} :
    reading registry s a = .ok b ↔ b.1 = a.1 ∧ convert registry s a.1 a.2 = .ok b.2 := by
  rw [reading, map_eq_ok]
  constructor
  · rintro ⟨v, hv, rfl⟩
    exact ⟨rfl, hv⟩
  · rintro ⟨hname, hv⟩
    exact ⟨b.2, hv, Prod.ext hname.symm rfl⟩

/-- A reading that fails does so in the conversion. -/
@[simp] lemma reading_eq_error {registry : Registry} {s : ObjectSchema} {a : String × List RawValue}
    {fault : QueryError} :
    reading registry s a = .error fault ↔ convert registry s a.1 a.2 = .error fault :=
  map_eq_error

/-- What is read stands under the names it was read for. -/
lemma keys_of_mapM_reading {registry : Registry} {s : ObjectSchema}
    {as : List (String × List RawValue)} {pairs : List (String × Value)}
    (h : as.mapM (reading registry s) = .ok pairs) : pairs.map (·.1) = as.map (·.1) := by
  rw [mapM_eq_ok] at h
  induction h with
  | nil => rfl
  | cons hab _ ih => rw [List.map_cons, List.map_cons, ih, (reading_eq_ok.mp hab).1]

/-- What has been found, with what is read for one more name. -/
def addReading (registry : Registry) (s : ObjectSchema) (found : OrderedMap Value)
    (a : String × List RawValue) : Except QueryError (OrderedMap Value) := do
  let v ← convert registry s a.1 a.2
  return found.insert a.1 v

/-- What is read for new names stands in their order behind what has been found. -/
lemma foldlM_addReading (registry : Registry) (s : ObjectSchema) :
    ∀ (as : List (String × List RawValue)) (found : OrderedMap Value),
      (as.map (·.1)).Nodup → (∀ a ∈ as, a.1 ∉ found.keys) →
      as.foldlM (addReading registry s) found
        = (fun pairs => ⟨found.toList ++ pairs⟩) <$> as.mapM (reading registry s)
  | [], found, _, _ => by
      rw [List.foldlM_nil, List.mapM_nil, map_pure, List.append_nil]
  | a :: as, found, hnodup, hnew => by
      rw [List.foldlM_cons, List.mapM_cons, addReading, reading]
      cases convert registry s a.1 a.2 with
      | error e => rfl
      | ok v =>
          rw [List.map_cons, List.nodup_cons] at hnodup
          have ha : a.1 ∉ found.keys := hnew a List.mem_cons_self
          have hrest : ∀ b ∈ as, b.1 ∉ (found.insert a.1 v).keys := by
            intro b hb
            rw [OrderedMap.keys_insert ha, List.mem_append, List.mem_singleton, not_or]
            refine ⟨hnew b (List.mem_cons_of_mem a hb), fun heq => hnodup.1 ?_⟩
            exact heq ▸ List.mem_map_of_mem hb
          have ih := foldlM_addReading registry s as (found.insert a.1 v) hnodup.2 hrest
          rw [OrderedMap.toList_insert ha] at ih
          refine Eq.trans ih ?_
          cases as.mapM (reading registry s) with
          | error e => rfl
          | ok pairs =>
              exact congrArg (fun l => Except.ok (OrderedMap.mk l))
                (List.append_assoc found.toList [(a.1, v)] pairs)

/-! ### Collecting -/

/-- **What is collected** is what is read for the names that are assigned. -/
lemma exists_collect_eq (registry : Registry) (s : ObjectSchema) :
    ∀ (attributes : List (String × List RawValue)) {p : Projection}, p.Keyed →
      ∃ q : Projection, q.missing = remaining p.missing ((offers s attributes).map (·.1)) ∧
        ∀ found, collect registry s p found attributes
          = (fun m => (q, m)) <$>
            (assigned p.missing (offers s attributes)).foldlM (addReading registry s) found
  | [], p, _ => by
      refine ⟨p, ?_, fun found => ?_⟩
      · simp [offers, remaining]
      · rw [collect, offers, List.flatMap_nil, assigned, List.foldlM_nil, map_pure]
        rfl
  | (d, values) :: attributes, p, h => by
      obtain ⟨hnames, hkeyed, hmissing⟩ :=
        Projection.Keyed.claimAll values (s.namesServed d) h
      obtain ⟨q, hq, hcollect⟩ := exists_collect_eq registry s attributes hkeyed
      have hserved : ((s.namesServed d).map fun n => (n, values)).map (·.1) = s.namesServed d := by
        rw [List.map_map]
        exact List.map_id _
      have hoffers : offers s ((d, values) :: attributes)
          = ((s.namesServed d).map fun n => (n, values)) ++ offers s attributes := rfl
      refine ⟨q, ?_, fun found => ?_⟩
      · rw [hq, hmissing, remaining_remaining, hoffers, List.map_append, hserved]
      · rw [hoffers, assigned_append, hserved, List.foldlM_append, ← hnames, ← hmissing,
          List.foldlM_map, collect, map_bind]
        exact congrArg _ (funext hcollect)

/-- Default values stand in the order of their names behind what has been found. -/
lemma toList_fillDefaults (s : ObjectSchema) {p : Projection} {found : OrderedMap Value}
    (hnodup : p.missing.Nodup) (hnew : ∀ r ∈ p.missing, r ∉ found.keys) :
    (fillDefaults s p found).toList
      = found.toList ++ p.missing.filterMap fun r => (s.defaultValue r).map fun v => (r, v) := by
  rw [fillDefaults]
  revert hnodup hnew
  generalize p.missing = names
  induction names generalizing found with
  | nil =>
      intro _ _
      exact (List.append_nil _).symm
  | cons r names ih =>
      intro hnodup hnew
      rw [List.nodup_cons] at hnodup
      have hr : r ∉ found.keys := hnew r List.mem_cons_self
      have hnames : ∀ q ∈ names, q ∉ found.keys := fun q hq =>
        hnew q (List.mem_cons_of_mem r hq)
      rw [List.foldl_cons]
      cases hdefault : s.defaultValue r with
      | none =>
          rw [ih hnodup.2 hnames, List.filterMap_cons_none (by rw [hdefault, Option.map_none])]
      | some v =>
          have hkeys : ∀ q ∈ names, q ∉ (found.insert r v).keys := by
            intro q hq
            rw [OrderedMap.keys_insert hr, List.mem_append, List.mem_singleton, not_or]
            exact ⟨hnames q hq, fun heq => hnodup.1 (heq ▸ hq)⟩
          rw [ih hnodup.2 hkeys, OrderedMap.toList_insert hr, List.append_assoc,
            List.filterMap_cons_some (by rw [hdefault, Option.map_some]), List.singleton_append]

/-! ### The names of an entry -/

/-- The names that are asked for, each in its first spelling. -/
def asked (h : Hydrator) : List String :=
  distinctNames h.selection

/-- The names that the attributes of an entry serve, with the values of the first attribute that
stands for each. -/
def served (h : Hydrator) (s : ObjectSchema) (e : Entry) : List (String × List RawValue) :=
  assigned h.asked (offers s e.normalized)

/-- The names that no attribute of an entry stands for, with their default values. -/
def defaulted (h : Hydrator) (s : ObjectSchema) (e : Entry) : List (String × Value) :=
  (remaining h.asked ((offers s e.normalized).map (·.1))).filterMap fun r =>
    (s.defaultValue r).map fun v => (r, v)

/-- The names asked for differ beyond their case. -/
lemma pairwise_asked (h : Hydrator) : h.asked.Pairwise fun q r => fold q ≠ fold r :=
  pairwise_distinctNames h.selection

/-- A name is served by the first attribute that stands for it. -/
lemma mem_served {h : Hydrator} {s : ObjectSchema} {e : Entry} {r : String}
    {values : List RawValue} :
    (r, values) ∈ h.served s e
      ↔ r ∈ h.asked ∧ (s.source? e.normalized r).map (·.2) = some values := by
  rw [served, mem_assigned h.pairwise_asked, find?_offers]

/-- The names that are served differ. -/
lemma nodup_served (h : Hydrator) (s : ObjectSchema) (e : Entry) :
    ((h.served s e).map (·.1)).Nodup := by
  refine List.pairwise_map.mpr ((pairwise_assigned h.pairwise_asked).imp ?_)
  intro p q hlt heq
  rw [heq] at hlt
  exact absurd hlt (Nat.lt_irrefl _)

/-- The names that are not served are those that no attribute stands for. -/
lemma remaining_offers (h : Hydrator) (s : ObjectSchema) (e : Entry) :
    remaining h.asked ((offers s e.normalized).map (·.1))
      = h.asked.filter fun r => (s.source? e.normalized r).isNone := by
  refine List.filter_congr fun r _ => ?_
  have hfind := find?_offers s r e.normalized
  rw [Bool.eq_iff_iff, decide_eq_true_eq, Option.isNone_iff_eq_none,
    ← Option.map_eq_none_iff (f := Prod.snd), ← hfind, Option.map_eq_none_iff,
    List.find?_eq_none]
  simp [isFor]

/-- **Hydration reads the names that are served, one after another**, and puts the default values
behind them. -/
theorem hydrate_eq {h : Hydrator} {s : ObjectSchema} (hs : h.schema = some s) (e : Entry) :
    h.hydrate e
      = (fun pairs => ⟨e.dn, ⟨pairs ++ h.defaulted s e⟩⟩) <$>
        (h.served s e).mapM (reading h.registry s) := by
  obtain ⟨q, hq, hcollect⟩ := exists_collect_eq h.registry s e.normalized
    (Projection.keyed_ofSelection h.selection)
  rw [Projection.missing_ofSelection, ← asked] at hq hcollect
  have hcollected : collect h.registry s (.ofSelection h.selection) .empty e.normalized
      = (fun pairs => (q, ⟨pairs⟩)) <$> (h.served s e).mapM (reading h.registry s) := by
    rw [hcollect, ← served, foldlM_addReading h.registry s _ _ (h.nodup_served s e) (by
      simp [OrderedMap.empty, OrderedMap.keys]), ← comp_map]
    rfl
  rw [hydrate, hs]
  dsimp only
  rw [hcollected]
  cases hread : (h.served s e).mapM (reading h.registry s) with
  | error fault => rfl
  | ok pairs =>
      have hnodup : q.missing.Nodup := by
        rw [hq]
        exact (h.pairwise_asked.imp fun hne heq => hne (congrArg fold heq)).filter _
      have hnew : ∀ r ∈ q.missing, r ∉ (OrderedMap.mk pairs).keys := by
        intro r hr hmem
        rw [OrderedMap.keys, keys_of_mapM_reading hread] at hmem
        obtain ⟨⟨r', values⟩, hserved, rfl⟩ := List.mem_map.mp hmem
        rw [hq, remaining_offers, List.mem_filter, Option.isNone_iff_eq_none] at hr
        have hsource := (mem_served.mp hserved).2
        rw [hr.2] at hsource
        cases hsource
      have hfill := toList_fillDefaults s hnodup hnew
      rw [hq] at hfill
      exact congrArg (fun l => Except.ok (HydratedEntry.mk e.dn (OrderedMap.mk l))) hfill

/-- An entry is hydrated when every name that is served is read. -/
lemma hydrate_eq_ok {h : Hydrator} {s : ObjectSchema} (hs : h.schema = some s) {e : Entry}
    {out : HydratedEntry} :
    h.hydrate e = .ok out ↔ ∃ pairs, (h.served s e).mapM (reading h.registry s) = .ok pairs
      ∧ ⟨e.dn, ⟨pairs ++ h.defaulted s e⟩⟩ = out := by
  simp [hydrate_eq hs]

/-- An entry is refused for the first name served that is not read. -/
lemma exists_of_hydrate_eq_error {h : Hydrator} {s : ObjectSchema} (hs : h.schema = some s)
    {e : Entry} {fault : QueryError} (hout : h.hydrate e = .error fault) :
    ∃ before r p after, h.served s e = before ++ (r, p.2) :: after
      ∧ (∀ b ∈ before, ∃ c, reading h.registry s b = .ok c) ∧ r ∈ h.asked
      ∧ s.source? e.normalized r = some p ∧ convert h.registry s r p.2 = .error fault := by
  rw [hydrate_eq hs, map_eq_error] at hout
  obtain ⟨before, ⟨r, values⟩, after, hsplit, hbefore, hr⟩ := exists_of_mapM_eq_error hout
  have hserved : (r, values) ∈ h.served s e := by
    rw [hsplit]
    exact List.mem_append_right before List.mem_cons_self
  obtain ⟨hasked, hsource⟩ := mem_served.mp hserved
  obtain ⟨p, hp, rfl⟩ := Option.map_eq_some_iff.mp hsource
  rw [reading_eq_error] at hr
  exact ⟨before, r, p, after, hsplit, hbefore, hasked, hp, hr⟩

end Hydrator

end DirectoryLens
