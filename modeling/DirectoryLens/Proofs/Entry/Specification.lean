/-
What hydration does, said of its outcome.

* `Hydrator.Reads`, `Hydrator.Fails`: the value that raw values have under a name, and why they
  have none;
* `Hydrator.Hydrates`, `Hydrator.Refuses`: what there is to say of an entry that is hydrated, and
  of one that is refused;
* `Hydrator.hydrate_spec`: hydration does what these say, as it does of an entry with a name of one
  value and one of several.
-/
import DirectoryLens.Proofs.Entry.Hydration
import DirectoryLens.Proofs.Value.Together

namespace DirectoryLens

open Text

namespace Hydrator

/-! ### Values -/

/-- The value of raw values under a name: each is taken as it is when no converter is declared for
the name, and else goes through that converter; a single value stands alone, and none or several
stand in a list. -/
inductive Reads (registry : Registry) (s : ObjectSchema) (r : String) (values : List RawValue)
    (v : Value) : Prop
  | plain : s.converterFor r = none → RawValue.VerbatimTogether values v →
      Reads registry s r values v
  | converted {name : String} {c : Converter} {vs : List Value} :
      s.converterFor r = some name → registry.get name = .ok c →
      List.Forall₂ (fun raw v => c.fromDirectory raw = .ok v) values vs → Value.Together vs v →
      Reads registry s r values v

/-- Why raw values have no value under a name: its converter is unknown, or refuses the first of
them that it does not convert. -/
inductive Fails (registry : Registry) (s : ObjectSchema) (r : String) (values : List RawValue) :
    QueryError → Prop
  | unknown {name : String} {fault : QueryError} :
      s.converterFor r = some name → registry.get name = .error fault →
      Fails registry s r values fault
  | refused {name : String} {c : Converter} {before after : List RawValue} {raw : RawValue}
      {fault : QueryError} :
      s.converterFor r = some name → registry.get name = .ok c →
      values = before ++ raw :: after → (∀ b ∈ before, ∃ v, c.fromDirectory b = .ok v) →
      c.fromDirectory raw = .error fault → Fails registry s r values (underName r fault)

/-- An error under a name leaves the values that there are. -/
@[simp] lemma mapError_eq_ok {f : QueryError → QueryError} {x : Except QueryError Value}
    {v : Value} :
    x.mapError f = .ok v ↔ x = .ok v := by
  cases x with
  | error e => exact ⟨fun h => (by cases h), fun h => (by cases h)⟩
  | ok w => exact Iff.rfl

/-- An error under a name comes from an error. -/
lemma exists_of_mapError_eq_error {f : QueryError → QueryError} {x : Except QueryError Value}
    {fault : QueryError} (h : x.mapError f = .error fault) :
    ∃ cause, x = .error cause ∧ fault = f cause := by
  cases x with
  | error e =>
      cases h
      exact ⟨e, rfl, rfl⟩
  | ok w => cases h

/-- The value converted for a name is the one that is read under it. -/
lemma convert_eq_ok {registry : Registry} {s : ObjectSchema} {r : String}
    {values : List RawValue} {v : Value} :
    convert registry s r values = .ok v ↔ Reads registry s r values v := by
  rw [convert]
  constructor
  · intro h
    cases hname : s.converterFor r with
    | none =>
        rw [hname] at h
        exact .plain hname (RawValue.verbatimTogether_iff.mpr (Except.ok.inj h))
    | some name =>
        rw [hname] at h
        obtain ⟨c, hget, h⟩ := bind_eq_ok.mp h
        obtain ⟨vs, hvs, h⟩ := bind_eq_ok.mp h
        rw [mapM_eq_ok] at hvs
        exact .converted hname hget (hvs.imp fun _ _ => mapError_eq_ok.mp)
          (Value.together_iff.mpr (Except.ok.inj h))
  · rintro (⟨hname, hv⟩ | ⟨hname, hget, hvs, hv⟩)
    · rw [hname]
      exact congrArg Except.ok (RawValue.verbatimTogether_iff.mp hv)
    · rw [hname]
      refine bind_eq_ok.mpr ⟨_, hget, bind_eq_ok.mpr ⟨_, mapM_eq_ok.mpr ?_,
        congrArg Except.ok (Value.together_iff.mp hv)⟩⟩
      exact hvs.imp fun _ _ => mapError_eq_ok.mpr

/-- A conversion that fails does so for the reason there is. -/
lemma fails_of_convert {registry : Registry} {s : ObjectSchema} {r : String}
    {values : List RawValue} {fault : QueryError} (h : convert registry s r values = .error fault) :
    Fails registry s r values fault := by
  rw [convert] at h
  cases hname : s.converterFor r with
  | none =>
      rw [hname] at h
      cases h
  | some name =>
      rw [hname] at h
      rcases bind_eq_error.mp h with hget | ⟨c, hget, h⟩
      · exact .unknown hname hget
      · rcases bind_eq_error.mp h with hvs | ⟨vs, -, h⟩
        · obtain ⟨before, raw, after, hvalues, hbefore, hraw⟩ := exists_of_mapM_eq_error hvs
          obtain ⟨cause, hcause, rfl⟩ := exists_of_mapError_eq_error hraw
          refine .refused hname hget hvalues (fun b hb => ?_) hcause
          obtain ⟨v, hv⟩ := hbefore b hb
          exact ⟨v, mapError_eq_ok.mp hv⟩
        · cases h

/-! ### Outcomes -/

/-- What there is to say of an entry that is hydrated. -/
structure Hydrates (h : Hydrator) (s : ObjectSchema) (e : Entry) (out : HydratedEntry) : Prop where
  dn : out.dn = e.dn
  /-- Values stand under names that are asked for. -/
  mem_asked : ∀ r ∈ out.attributes.keys, r ∈ h.asked
  /-- The names differ beyond their case. -/
  distinct : out.attributes.keys.Pairwise fun q r => fold q ≠ fold r
  /-- A name is there when an attribute stands for it, and when it has a default value. -/
  mem_keys : ∀ r ∈ h.asked, r ∈ out.attributes.keys
    ↔ (∃ p ∈ e.normalized, s.Matches p.1 r) ∨ ∃ v, s.defaultValue r = some v
  /-- A name has the values of the first attribute that stands for it. -/
  matched : ∀ r ∈ h.asked, ∀ p, s.source? e.normalized r = some p →
    ∃ v, out.get? r = some v ∧ Reads h.registry s r p.2 v
  /-- A name that no attribute stands for has its default value. -/
  unmatched : ∀ r ∈ h.asked, s.source? e.normalized r = none → out.get? r = s.defaultValue r
  /-- The names that attributes stand for are in the order of these, and the others stand behind
  them in the order in which they are asked for. -/
  order : ∃ found filled, out.attributes.keys = found ++ filled
    ∧ (∀ r ∈ found, s.source? e.normalized r ≠ none)
    ∧ (∀ r ∈ filled, s.source? e.normalized r = none)
    ∧ found.Pairwise (s.Precedes e.normalized) ∧ filled.Sublist h.asked

/-- What there is to say of an entry that is refused: of the names that attributes stand for it is
the first one whose values are not read. -/
def Refuses (h : Hydrator) (s : ObjectSchema) (e : Entry) (fault : QueryError) : Prop :=
  ∃ r ∈ h.asked, ∃ p, s.source? e.normalized r = some p ∧ Fails h.registry s r p.2 fault
    ∧ ∀ q ∈ h.asked, ∀ p', s.source? e.normalized q = some p' → s.Precedes e.normalized q r →
      ∃ v, Reads h.registry s q p'.2 v

variable {h : Hydrator} {s : ObjectSchema} {e : Entry}

/-- The names that are served are those that attributes stand for. -/
lemma mem_keys_served {r : String} :
    r ∈ (h.served s e).map (·.1) ↔ r ∈ h.asked ∧ s.source? e.normalized r ≠ none := by
  rw [List.mem_map]
  constructor
  · rintro ⟨⟨r', values⟩, hserved, rfl⟩
    obtain ⟨hr, hsource⟩ := mem_served.mp hserved
    refine ⟨hr, fun hnone => ?_⟩
    rw [hnone] at hsource
    cases hsource
  · rintro ⟨hr, hsource⟩
    obtain ⟨p, hp⟩ := Option.ne_none_iff_exists'.mp hsource
    exact ⟨(r, p.2), mem_served.mpr ⟨hr, by rw [hp, Option.map_some]⟩, rfl⟩

/-- The names that are served stand in the order of the attributes. -/
lemma pairwise_served (h : Hydrator) (s : ObjectSchema) (e : Entry) :
    (h.served s e).Pairwise fun p q => s.Precedes e.normalized p.1 q.1 :=
  (pairwise_assigned h.pairwise_asked).imp ObjectSchema.precedes_of_findIdx_offers_lt

/-- Default values are those of the names that no attribute stands for. -/
lemma mem_defaulted {r : String} {v : Value} :
    (r, v) ∈ h.defaulted s e
      ↔ (r ∈ h.asked ∧ s.source? e.normalized r = none) ∧ s.defaultValue r = some v := by
  rw [defaulted, remaining_offers, List.mem_filterMap]
  simp only [List.mem_filter, Option.isNone_iff_eq_none]
  constructor
  · rintro ⟨q, hq, hv⟩
    obtain ⟨w, hw, heq⟩ := Option.map_eq_some_iff.mp hv
    cases heq
    exact ⟨hq, hw⟩
  · rintro ⟨hr, hv⟩
    exact ⟨r, hr, by rw [hv, Option.map_some]⟩

/-- The names with default values are those that no attribute stands for and that have one. -/
lemma mem_keys_defaulted {r : String} :
    r ∈ (h.defaulted s e).map (·.1)
      ↔ (r ∈ h.asked ∧ s.source? e.normalized r = none) ∧ ∃ v, s.defaultValue r = some v := by
  rw [List.mem_map]
  constructor
  · rintro ⟨⟨r', v⟩, hmem, rfl⟩
    obtain ⟨hr, hv⟩ := mem_defaulted.mp hmem
    exact ⟨hr, v, hv⟩
  · rintro ⟨hr, v, hv⟩
    exact ⟨(r, v), mem_defaulted.mpr ⟨hr, hv⟩, rfl⟩

/-- Default values stand in the order in which their names are asked for. -/
lemma keys_defaulted_sublist (h : Hydrator) (s : ObjectSchema) (e : Entry) :
    ((h.defaulted s e).map (·.1)).Sublist h.asked := by
  have hkeys : (h.defaulted s e).map (·.1)
      = (remaining h.asked ((offers s e.normalized).map (·.1))).filter fun r =>
          (s.defaultValue r).isSome := by
    rw [defaulted, List.map_filterMap, ← List.filterMap_eq_filter]
    refine List.filterMap_congr fun r _ => ?_
    cases hv : s.defaultValue r with
    | none => simp [Option.guard, hv]
    | some v => simp [Option.guard, hv]
  rw [hkeys]
  exact List.filter_sublist.trans List.filter_sublist

/-! ### Entries that are hydrated -/

section Hydrated

variable {pairs : List (String × Value)}
  (hread : (h.served s e).mapM (reading h.registry s) = .ok pairs)

include hread

/-- The keys are the names served, and then those with default values. -/
lemma keys_hydrated : (OrderedMap.mk (pairs ++ h.defaulted s e)).keys
    = (h.served s e).map (·.1) ++ (h.defaulted s e).map (·.1) := by
  rw [OrderedMap.keys, List.map_append, keys_of_mapM_reading hread]

/-- The keys are the names asked for that an attribute stands for or that have a default value. -/
lemma mem_keys_hydrated {r : String} :
    r ∈ (OrderedMap.mk (pairs ++ h.defaulted s e)).keys
      ↔ r ∈ h.asked ∧ (s.source? e.normalized r ≠ none ∨ ∃ v, s.defaultValue r = some v) := by
  rw [keys_hydrated hread, List.mem_append, mem_keys_served, mem_keys_defaulted]
  constructor
  · rintro (⟨hr, hsource⟩ | ⟨⟨hr, -⟩, hv⟩)
    · exact ⟨hr, .inl hsource⟩
    · exact ⟨hr, .inr hv⟩
  · rintro ⟨hr, hr'⟩
    by_cases hsource : s.source? e.normalized r = none
    · exact .inr ⟨⟨hr, hsource⟩, hr'.resolve_left fun hne => hne hsource⟩
    · exact .inl ⟨hr, hsource⟩

/-- The keys differ. -/
lemma nodup_keys_hydrated : (OrderedMap.mk (pairs ++ h.defaulted s e)).keys.Nodup := by
  rw [keys_hydrated hread, List.nodup_append]
  refine ⟨h.nodup_served s e, ?_, ?_⟩
  · exact (keys_defaulted_sublist h s e).nodup
      (h.pairwise_asked.imp fun hne heq => hne (congrArg fold heq))
  · rintro r hr q hq rfl
    exact (mem_keys_served.mp hr).2 (mem_keys_defaulted.mp hq).1.2

/-- A name has the values of the first attribute that stands for it. -/
lemma exists_get?_of_source {r : String} (hr : r ∈ h.asked) {p : String × List RawValue}
    (hp : s.source? e.normalized r = some p) :
    ∃ v, (OrderedMap.mk (pairs ++ h.defaulted s e)).get? r = some v
      ∧ Reads h.registry s r p.2 v := by
  have hserved : (r, p.2) ∈ h.served s e := mem_served.mpr ⟨hr, by rw [hp, Option.map_some]⟩
  obtain ⟨⟨r', v⟩, hpair, hv⟩ := exists_mem_of_forall₂ (mapM_eq_ok.mp hread).flip hserved
  obtain ⟨rfl, hv⟩ := reading_eq_ok.mp hv
  exact ⟨v, (OrderedMap.get?_eq_some_iff (nodup_keys_hydrated hread)).mpr
    (List.mem_append_left _ hpair), convert_eq_ok.mp hv⟩

/-- A name that no attribute stands for has its default value. -/
lemma get?_of_no_source {r : String} (hr : r ∈ h.asked)
    (hsource : s.source? e.normalized r = none) :
    (OrderedMap.mk (pairs ++ h.defaulted s e)).get? r = s.defaultValue r := by
  refine Option.ext fun v => ?_
  have hpairs : (r, v) ∉ pairs := by
    intro hpair
    have hserved : r ∈ pairs.map (·.1) := List.mem_map_of_mem hpair
    rw [keys_of_mapM_reading hread, mem_keys_served] at hserved
    exact hserved.2 hsource
  rw [OrderedMap.get?_eq_some_iff (nodup_keys_hydrated hread), List.mem_append, mem_defaulted]
  exact ⟨fun h => (h.resolve_left hpairs).2, fun hv => .inr ⟨⟨hr, hsource⟩, hv⟩⟩

end Hydrated

/-- **An entry that is hydrated**: what is read for the names served, and the default values. -/
theorem hydrates_of_hydrate {out : HydratedEntry} (hs : h.schema = some s)
    (hout : h.hydrate e = .ok out) : Hydrates h s e out := by
  obtain ⟨pairs, hread, rfl⟩ := (hydrate_eq_ok hs).mp hout
  have hmem : ∀ r ∈ (OrderedMap.mk (pairs ++ h.defaulted s e)).keys, r ∈ h.asked :=
    fun r hr => ((mem_keys_hydrated hread).mp hr).1
  constructor
  case dn => rfl
  case mem_asked => exact hmem
  case distinct =>
      refine List.Pairwise.imp_of_mem (fun hq hr hne heq => hne ?_) (nodup_keys_hydrated hread)
      exact eq_of_fold_eq h.pairwise_asked (hmem _ hq) (hmem _ hr) heq
  case mem_keys =>
      intro r hr
      rw [mem_keys_hydrated hread, ObjectSchema.source?_ne_none]
      exact and_iff_right hr
  case matched => exact fun r hr p hp => exists_get?_of_source hread hr hp
  case unmatched => exact fun r hr hsource => get?_of_no_source hread hr hsource
  case order =>
      exact ⟨_, _, keys_hydrated hread, fun r hr => (mem_keys_served.mp hr).2,
        fun r hr => (mem_keys_defaulted.mp hr).1.2,
        List.pairwise_map.mpr (pairwise_served h s e), keys_defaulted_sublist h s e⟩

/-! ### Entries that are refused -/

/-- **An entry that is refused**: the first name served that is not read. -/
theorem refuses_of_hydrate {fault : QueryError} (hs : h.schema = some s)
    (hout : h.hydrate e = .error fault) : Refuses h s e fault := by
  obtain ⟨before, r, p, after, hsplit, hbefore, hasked, hp, hr⟩ :=
    exists_of_hydrate_eq_error hs hout
  refine ⟨r, hasked, p, hp, fails_of_convert hr, ?_⟩
  intro q hq p' hp' hprec
  have hqserved : (q, p'.2) ∈ h.served s e :=
    mem_served.mpr ⟨hq, by rw [hp', Option.map_some]⟩
  have horder := pairwise_served h s e
  rw [hsplit] at hqserved horder
  rw [List.pairwise_append, List.pairwise_cons] at horder
  rcases List.mem_append.mp hqserved with hmem | hmem
  · obtain ⟨b, hb⟩ := hbefore _ hmem
    exact ⟨b.2, convert_eq_ok.mp (reading_eq_ok.mp hb).2⟩
  · -- a name at or behind the one that fails does not come before it
    rcases List.mem_cons.mp hmem with heq | hmem
    · rw [Prod.mk.injEq] at heq
      rw [heq.1] at hprec
      exact absurd hprec hprec.asymm
    · exact absurd hprec (horder.2.1.1 _ hmem).asymm

/-- An entry is hydrated when the values of every name are read. -/
lemma exists_hydrate_eq_ok (hs : h.schema = some s)
    (hread : ∀ r ∈ h.asked, ∀ p, s.source? e.normalized r = some p →
      ∃ v, Reads h.registry s r p.2 v) : ∃ out, h.hydrate e = .ok out := by
  cases hout : h.hydrate e with
  | ok out => exact ⟨out, rfl⟩
  | error fault =>
      obtain ⟨-, r, p, -, -, -, hr, hp, hfault⟩ := exists_of_hydrate_eq_error hs hout
      obtain ⟨v, hv⟩ := hread r hr p hp
      rw [convert_eq_ok.mpr hv] at hfault
      cases hfault

/-- **What hydration does.** An entry is hydrated with the names asked for, each read from the first
attribute that stands for it, else with its default value, in the order of the attributes and of
the names that each of them serves; it is refused for the first name in that order that is not
read. -/
theorem hydrate_spec (registry : Registry) (s : ObjectSchema) (selected : Option (List String))
    (e : Entry) :
    match hydrate ⟨registry, some s, selected⟩ e with
    | .ok out => Hydrates ⟨registry, some s, selected⟩ s e out
    | .error fault => Refuses ⟨registry, some s, selected⟩ s e fault := by
  cases hout : hydrate ⟨registry, some s, selected⟩ e with
  | ok out => exact hydrates_of_hydrate rfl hout
  | error fault => exact refuses_of_hydrate rfl hout

/-- A schema with names of its own for attributes, a converter and a default value. -/
def personSchema : ObjectSchema :=
  (((ObjectSchema.ofNames "directory" "person").setAttributes
    [("email", "mail"), ("logins", "logonCount")]).setConverters
      [("logins", "int")]).setDefaults [("room", .string "none")]

/-- Names that are asked for, one of them without an attribute. -/
def personHydrator : Hydrator :=
  ⟨.builtin, some personSchema, some ["room", "cn", "email", "logins"]⟩

/-- An entry of an attribute with one value, of one with two, and of one that is converted. -/
def personEntry : Entry :=
  .ofPairs [("cn", [.text "jo"]), ("mail", [.text "a", .binary [255]]),
    ("logonCount", [.text "7"])]

/-- A name with one value has that value, and one with two has the list of them, each as it is
stored; a value with a converter is converted, and a name without an attribute has its default
value, behind the others. -/
theorem hydrate_spec_person :
    ∃ out, personHydrator.hydrate personEntry = .ok out
      ∧ out.attributes.keys = ["cn", "email", "logins", "room"]
      ∧ out.get? "cn" = some (.string "jo")
      ∧ out.get? "email" = some (.array [.string "a", .binary [255]])
      ∧ out.get? "logins" = some (.integer 7)
      ∧ out.get? "room" = some (.string "none") := by
  have hout : personHydrator.hydrate personEntry = .ok ⟨none, ⟨[("cn", .string "jo"),
      ("email", .array [.string "a", .binary [255]]), ("logins", .integer 7),
      ("room", .string "none")]⟩⟩ := rfl
  have hspec := hydrate_spec .builtin personSchema (some ["room", "cn", "email", "logins"])
    personEntry
  rw [← personHydrator, hout] at hspec
  refine ⟨_, hout, rfl, ?_, ?_, ?_, hspec.unmatched "room" (by decide) rfl⟩
  · obtain ⟨v, hv, hreads⟩ := hspec.matched "cn" (by decide) ("cn", [.text "jo"]) rfl
    rcases hreads with ⟨-, _, _ | ⟨⟨⟩, ⟨⟩⟩, _ | _⟩ | ⟨⟨⟩, -⟩
    · exact hv
    · contradiction
  · obtain ⟨v, hv, hreads⟩ := hspec.matched "email" (by decide)
      ("mail", [.text "a", .binary [255]]) rfl
    rcases hreads with ⟨-, _, _ | ⟨⟨⟩, _ | ⟨⟨⟩, ⟨⟩⟩⟩, ⟨⟩⟩ | ⟨⟨⟩, -⟩
    exact hv
  · obtain ⟨v, hv, hreads⟩ := hspec.matched "logins" (by decide) ("logonCount", [.text "7"]) rfl
    rcases hreads with ⟨⟨⟩, -⟩ | ⟨⟨⟩, ⟨⟩, _ | ⟨hseven, ⟨⟩⟩, _ | _⟩
    · have hvalue : Except.ok (Value.integer 7) = Except.ok v := hseven
      exact hv.trans (congrArg some (Except.ok.inj hvalue).symm)
    · contradiction

end Hydrator

end DirectoryLens
