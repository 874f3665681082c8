/-
Entries and selections whose names are spelled in another case.

* `KeyedAlike`: two pairs with one value, under keys that differ in their case;
* `assigned_congr`, `forall₂_assigned`: what is assigned does not depend on the spelling of what is
  offered, and on that of what is asked for by its names alone;
* `Entry.forall₂_ofPairs`: entries of names that differ in their case have their attributes so;
* `Hydrator.hydrate_respelled`: an entry is hydrated as it is in other spellings of its names;
* `Hydrator.FaultAlike`: two errors that arose alike under names that differ in their case;
* `Hydrator.hydrate_reselected`: under other spellings of the selected names an entry is hydrated to
  the same values, in the same order;
* `Hydrator.find?_selection_of_mem_keys`: the keys are the first spellings of the names.
-/
import DirectoryLens.Proofs.Entry.Flag
import DirectoryLens.Proofs.Entry.Source
import DirectoryLens.Proofs.Text.Spelling

namespace DirectoryLens

open Text

variable {α : Type}

/-- Two pairs with one value, under keys that differ at most in the case of their ASCII letters. -/
def KeyedAlike (p q : String × α) : Prop :=
  CaseAlike p.1 q.1 ∧ q.2 = p.2

/-! ### Offers in another spelling -/

/-- Two offers of one value under names that fold alike. -/
def OfferedAlike (o o' : String × α) : Prop :=
  fold o.1 = fold o'.1 ∧ o'.2 = o.2

/-- Attributes in another spelling offer alike. -/
lemma forall₂_offers (s : ObjectSchema) {attributes attributes' : List (String × α)}
    (h : List.Forall₂ KeyedAlike attributes attributes') :
    List.Forall₂ OfferedAlike (offers s attributes) (offers s attributes') := by
  induction h with
  | nil => exact .nil
  | @cons p p' attributes attributes' hp _ ih =>
      obtain ⟨d, a⟩ := p
      obtain ⟨d', a'⟩ := p'
      obtain ⟨hname, rfl⟩ := hp
      have hserved : List.Forall₂ OfferedAlike ((s.namesServed d).map fun n => (n, a'))
          ((s.namesServed d').map fun n => (n, a')) := by
        rw [ObjectSchema.namesServed, ObjectSchema.namesServed,
          ObjectSchema.namesMappedTo_congr hname.fold_eq s, List.map_append, List.map_append]
        exact List.rel_append (List.forall₂_same.mpr fun _ _ => ⟨rfl, rfl⟩)
          (.cons ⟨hname.fold_eq, rfl⟩ .nil)
      exact List.rel_append hserved ih

/-- What is asked for no more does not depend on the spelling of what is given. -/
lemma remaining_congr {names names' : List String} (h : names.map fold = names'.map fold)
    (asked : List String) : remaining asked names = remaining asked names' := by
  rw [remaining, remaining, h]

/-- What is assigned does not depend on the spelling of what is offered. -/
lemma assigned_congr {offers offers' : List (String × α)}
    (h : List.Forall₂ OfferedAlike offers offers') : ∀ asked : List String,
    assigned asked offers' = assigned asked offers := by
  induction h with
  | nil => exact fun _ => rfl
  | @cons o o' offers offers' ho _ ih =>
      intro asked
      obtain ⟨n, a⟩ := o
      obtain ⟨n', a'⟩ := o'
      obtain ⟨hname, rfl⟩ := ho
      have hfold : fold n = fold n' := hname
      have hremaining : remaining asked [n'] = remaining asked [n] :=
        remaining_congr (by rw [List.map_singleton, List.map_singleton, hfold]) asked
      rw [assigned, assigned, hfold, hremaining]
      simp only [ih]

/-- The folded names of what is offered do not depend on its spelling. -/
lemma map_fold_offers {offers offers' : List (String × α)}
    (h : List.Forall₂ OfferedAlike offers offers') :
    (offers.map (·.1)).map fold = (offers'.map (·.1)).map fold := by
  induction h with
  | nil => rfl
  | cons ho _ ih =>
      rw [List.map_cons, List.map_cons, List.map_cons, List.map_cons, ih, ho.1]

namespace Entry

/-- Two stored attributes under one key, with the same values and names that differ at most in the
case of their ASCII letters. -/
def StoredAlike (p q : String × String × List RawValue) : Prop :=
  q.1 = p.1 ∧ KeyedAlike p.2 q.2

variable {pairs pairs' : List (String × String × List RawValue)}

/-- A key leads to attributes that are alike. -/
lemma rel_get? (h : List.Forall₂ StoredAlike pairs pairs') (k : String) :
    Option.Rel KeyedAlike ((OrderedMap.mk pairs).get? k) ((OrderedMap.mk pairs').get? k) := by
  have hfind : Option.Rel StoredAlike (pairs.find? (·.1 == k)) (pairs'.find? (·.1 == k)) :=
    rel_find? h fun p q hpq => by rw [hpq.1]
  rw [OrderedMap.get?, OrderedMap.get?]
  revert hfind
  generalize pairs.find? (·.1 == k) = p?, pairs'.find? (·.1 == k) = q?
  rintro (hpq | -)
  · exact .some hpq.2
  · exact .none

/-- Attributes that are alike stay so when alike ones are put under one key. -/
lemma forall₂_insertPair (h : List.Forall₂ StoredAlike pairs pairs') {k : String}
    {v v' : String × List RawValue} (hv : KeyedAlike v v') :
    List.Forall₂ StoredAlike (OrderedMap.insertPair k v pairs)
      (OrderedMap.insertPair k v' pairs') := by
  induction h with
  | nil => exact .cons ⟨rfl, hv⟩ .nil
  | @cons p q pairs pairs' hpq hrest ih =>
      obtain ⟨k₁, w⟩ := p
      obtain ⟨k₂, w'⟩ := q
      obtain ⟨hkey, hw⟩ := hpq
      obtain rfl : k₂ = k₁ := hkey
      rw [OrderedMap.insertPair, OrderedMap.insertPair]
      split
      · exact .cons ⟨rfl, hv⟩ hrest
      · exact .cons ⟨rfl, hw⟩ ih

/-- Entries whose attributes are alike stay so when values come under names that differ in their
case. -/
lemma forall₂_insert {e e' : Entry}
    (h : List.Forall₂ StoredAlike e.attributes.toList e'.attributes.toList)
    {p p' : String × List RawValue} (hp : KeyedAlike p p') :
    List.Forall₂ StoredAlike (e.insert p.1 p.2).attributes.toList
      (e'.insert p'.1 p'.2).attributes.toList := by
  obtain ⟨hname, hvalues⟩ := hp
  rw [insert, insert, hvalues, hname.fold_eq]
  have hget := rel_get? h (fold p'.1)
  revert hget
  generalize e.attributes.get? (fold p'.1) = old?, e'.attributes.get? (fold p'.1) = old'?
  rintro (hold | -)
  · exact forall₂_insertPair h ⟨hold.1, by rw [hold.2]⟩
  · exact forall₂_insertPair h ⟨hname, rfl⟩

/-- **Entries of names that differ in their case have their attributes so**, in the same order. -/
theorem forall₂_ofPairs {pairs pairs' : List (String × List RawValue)}
    (h : List.Forall₂ KeyedAlike pairs pairs') :
    List.Forall₂ KeyedAlike (ofPairs pairs).toList (ofPairs pairs').toList := by
  have hinsert : ∀ e e' : Entry,
      List.Forall₂ StoredAlike e.attributes.toList e'.attributes.toList →
      List.Forall₂ StoredAlike (e.insertAll pairs).attributes.toList
        (e'.insertAll pairs').attributes.toList := by
    induction h with
    | nil => exact fun _ _ he => he
    | cons hp _ ih => exact fun e e' he => ih _ _ (forall₂_insert he hp)
  exact List.rel_map (fun {p q} hpq => hpq.2) (hinsert .empty .empty .nil)

/-- The distinguished name of an entry is not changed by what is added to it. -/
@[simp] lemma dn_insertAll (pairs : List (String × List RawValue)) : ∀ e : Entry,
    (e.insertAll pairs).dn = e.dn := by
  induction pairs with
  | nil => exact fun _ => rfl
  | cons p pairs ih => exact fun e => ih (e.insert p.1 p.2)

/-- The attributes of an entry that are no bookkeeping are so in another spelling. -/
lemma forall₂_normalized {e e' : Entry} (h : List.Forall₂ KeyedAlike e.toList e'.toList) :
    List.Forall₂ KeyedAlike e.normalized e'.normalized := by
  refine forall₂_filter h fun p p' hp => ?_
  rw [isBookkeeping_congr hp.1.map_toLower_eq]

end Entry

namespace Hydrator

/-- **An entry is hydrated as it is in other spellings of its names.** -/
theorem hydrate_respelled (h : Hydrator) {s : ObjectSchema} (hs : h.schema = some s) {e e' : Entry}
    (hdn : e'.dn = e.dn) (halike : List.Forall₂ KeyedAlike e.toList e'.toList) :
    h.hydrate e' = h.hydrate e := by
  have hoffers := forall₂_offers s (Entry.forall₂_normalized halike)
  rw [hydrate_eq hs, hydrate_eq hs, served, served, defaulted, defaulted, hdn,
    assigned_congr hoffers, remaining_congr (map_fold_offers hoffers)]

end Hydrator

/-! ### Selections in another spelling -/

/-- Distinct names are the same ones in another spelling, each in the first that it has there. -/
lemma forall₂_distinctNames {names names' : List String}
    (h : List.Forall₂ CaseAlike names names') :
    List.Forall₂ CaseAlike (distinctNames names) (distinctNames names') := by
  induction h with
  | nil => exact .nil
  | @cons r r' names names' hr _ ih =>
      rw [distinctNames, distinctNames]
      exact .cons hr (forall₂_filter ih fun q q' hq => by rw [hq.fold_eq, hr.fold_eq])

/-- The names that are asked for no more are the same ones in another spelling. -/
lemma forall₂_remaining {asked asked' : List String} (h : List.Forall₂ CaseAlike asked asked')
    (names : List String) :
    List.Forall₂ CaseAlike (remaining asked names) (remaining asked' names) :=
  forall₂_filter h fun q q' hq => by rw [hq.fold_eq]

/-- What is assigned to names is assigned to them in another spelling. -/
lemma forall₂_assigned (offers : List (String × α)) : ∀ {asked asked' : List String},
    List.Forall₂ CaseAlike asked asked' →
    List.Forall₂ KeyedAlike (assigned asked offers) (assigned asked' offers) := by
  induction offers with
  | nil =>
      intro asked asked' _
      rw [assigned, assigned]
      exact .nil
  | cons o offers ih =>
      intro asked asked' h
      obtain ⟨n, a⟩ := o
      have hfind : Option.Rel CaseAlike (asked.find? fun r => fold r == fold n)
          (asked'.find? fun r => fold r == fold n) :=
        rel_find? h fun q q' hq => by rw [hq.fold_eq]
      rw [assigned, assigned]
      revert hfind
      generalize asked.find? (fun r => fold r == fold n) = r?,
        asked'.find? (fun r => fold r == fold n) = r'?
      rintro (hr | -)
      · exact .cons ⟨hr, rfl⟩ (ih (forall₂_remaining h [n]))
      · exact ih h

namespace Hydrator

variable {registry : Registry} {s : ObjectSchema}

/-- Two errors that arose alike under names that differ at most in the case of their ASCII
letters. -/
def FaultAlike (fault fault' : QueryError) : Prop :=
  ∃ r r' cause, CaseAlike r r' ∧ fault = underName r cause ∧ fault' = underName r' cause

/-- Values are converted alike under names that differ in their case, up to the name that an error
tells. -/
lemma convert_respelled {r r' : String} (hr : CaseAlike r r') (values : List RawValue) :
    ExceptRel Eq FaultAlike (convert registry s r values) (convert registry s r' values) := by
  rw [convert, convert, ← ObjectSchema.converterFor_congr hr.fold_eq s]
  cases s.converterFor r with
  | none => exact .ok rfl
  | some converter =>
      cases hget : registry.get converter with
      | error fault =>
          -- that a converter is unknown is said without the name
          have hunknown : fault = .unknownConverter converter := by
            rw [Registry.get] at hget
            split at hget <;> cases hget
            rfl
          simp only [hget]
          exact .error ⟨r, r', fault, hr, by rw [hunknown]; rfl, by rw [hunknown]; rfl⟩
      | ok c =>
          have hvalues : ExceptRel (List.Forall₂ Eq) FaultAlike
              (values.mapM fun raw => (c.fromDirectory raw).mapError (underName r))
              (values.mapM fun raw => (c.fromDirectory raw).mapError (underName r')) := by
            refine ExceptRel.mapM (List.forall₂_same.mpr fun _ _ => rfl) fun raw _ hraw => ?_
            obtain rfl := hraw
            cases c.fromDirectory raw with
            | error cause => exact .error ⟨r, r', cause, hr, rfl, rfl⟩
            | ok v => exact .ok rfl
          simp only [hget, ← map_eq_pure_bind]
          exact hvalues.map fun vs vs' hvs => by rw [List.forall₂_eq_eq_eq] at hvs; rw [hvs]

/-- What is read for names is read for them in another spelling. -/
lemma reading_respelled {a a' : String × List RawValue} (h : KeyedAlike a a') :
    ExceptRel KeyedAlike FaultAlike (reading registry s a) (reading registry s a') := by
  obtain ⟨r, values⟩ := a
  obtain ⟨r', values'⟩ := a'
  obtain ⟨hr, rfl⟩ := h
  exact (convert_respelled hr values').map fun v v' hv => ⟨hr, hv.symm⟩

/-- **Under other spellings of the selected names an entry has the same values**, in the same order
and under the first spelling of each name, or the same error, up to the name that it tells. -/
theorem hydrate_reselected (registry : Registry) (s : ObjectSchema)
    {selected selected' : List String} (h : List.Forall₂ CaseAlike selected selected') (e : Entry) :
    ExceptRel (fun out out' => out'.dn = out.dn
        ∧ List.Forall₂ KeyedAlike out.attributes.toList out'.attributes.toList) FaultAlike
      (hydrate ⟨registry, some s, some selected⟩ e)
      (hydrate ⟨registry, some s, some selected'⟩ e) := by
  have hasked := forall₂_distinctNames h
  rw [hydrate_eq rfl, hydrate_eq rfl]
  have hserved := forall₂_assigned (offers s e.normalized) hasked
  have hdefaulted : List.Forall₂ KeyedAlike (defaulted ⟨registry, some s, some selected⟩ s e)
      (defaulted ⟨registry, some s, some selected'⟩ s e) := by
    refine List.rel_filterMap (fun {r r'} hr => ?_)
      (forall₂_remaining hasked ((offers s e.normalized).map (·.1)))
    rw [← ObjectSchema.defaultValue_congr hr.fold_eq s]
    cases s.defaultValue r with
    | none => exact .none
    | some v => exact .some ⟨hr, rfl⟩
  exact (ExceptRel.mapM hserved fun a a' ha => reading_respelled ha).map
    fun pairs pairs' hpairs => ⟨rfl, List.rel_append hpairs hdefaulted⟩

/-- The keys of a hydrated entry are the first spellings in which its names are asked for. -/
lemma find?_selection_of_mem_keys {h : Hydrator} (hs : h.schema = some s) {e : Entry}
    {out : HydratedEntry} (hout : h.hydrate e = .ok out) {k : String}
    (hk : k ∈ out.attributes.keys) :
    h.selection.find? (fun q => fold q == fold k) = some k := by
  have hasked := (hydrates_of_hydrate hs hout).mem_asked k hk
  obtain ⟨r, hr, hrk, hfind⟩ := exists_find?_selection (mem_of_mem_distinctNames hasked)
  rw [hfind, eq_of_fold_eq h.pairwise_asked hr hasked hrk]

end Hydrator

end DirectoryLens
