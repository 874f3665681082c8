/-
Entries that are read from JSON, whose keys are taken as they are given.

* `Entry.exists_of_ofJson?`: an entry that is read has what its JSON has;
* `Entry.Located`, `Entry.Apart`, `Entry.PassesWhole`: what the views of an entry promise;
* `Entry.located_iff`, `Entry.located_and_apart_iff`, `Entry.passesWhole_iff`: the keys and names
  that keep it;
* `Entry.reload_views`: which of them keep it;
* `Entry.not_every_reload_located`: not all of them do.

All other entries are made by insertions, and every attribute stands under its folded name
(`Entry.Keyed`). Reading puts an attribute under the key that is given for it, and all that is left
of this is that no key is there twice.
-/
import DirectoryLens.Proofs.Entry.Multimap
import DirectoryLens.Proofs.Schema.Declaration
import DirectoryLens.Proofs.Schema.Definition
import DirectoryLens.Proofs.Value.Together

namespace DirectoryLens

open Text

namespace Entry

variable {e : Entry}

/-! ### Reading -/

/-- **An entry that is read** has what its JSON has, each attribute under the key that is given for
it. -/
lemma exists_of_ofJson? {j : Json} (h : ofJson? j = some e) :
    ∃ dn attributes pairs, j.fields? ["dn", "attributes"] = some [dn, some attributes]
      ∧ Json.field? (Json.asNullable? Json.asText?) none dn = some e.dn
      ∧ attributes.asMap? attributeOfJson? = some pairs
      ∧ e.attributes = .ofList pairs := by
  rw [ofJson?] at h
  obtain ⟨fields, hfields, h⟩ := Option.bind_eq_some_iff.mp h
  split at h
  · rename_i dn attributes
    obtain ⟨dn', hdn, h⟩ := Option.bind_eq_some_iff.mp h
    obtain ⟨value, hvalue, h⟩ := Option.bind_eq_some_iff.mp h
    obtain ⟨pairs, hpairs, h⟩ := Option.bind_eq_some_iff.mp h
    obtain rfl := Option.some.inj h
    exact ⟨dn, value, pairs, hvalue ▸ hfields, hdn, hpairs, rfl⟩
  · cases h

/-- The keys of an entry that is read differ. -/
lemma nodup_keys_of_ofJson? {j : Json} (h : ofJson? j = some e) : e.attributes.keys.Nodup := by
  obtain ⟨-, -, pairs, -, -, -, hlist⟩ := exists_of_ofJson? h
  rw [hlist]
  exact OrderedMap.nodup_keys_ofList pairs

/-! ### What the views promise -/

/-- The values of each attribute under the key that it stands under. -/
def underKeys (e : Entry) : List (String × List RawValue) :=
  e.attributes.toList.map fun a => (a.1, a.2.2)

/-- The values of each attribute under the key that its name has. -/
def underNames (e : Entry) : List (String × List RawValue) :=
  e.toList.map fun p => (fold p.1, p.2)

/-- Every attribute is found under its name. -/
def Located (e : Entry) : Prop :=
  ∀ p ∈ e.toList, e.get? p.1 = some p.2

/-- No two names fold alike. -/
def Apart (e : Entry) : Prop :=
  e.toList.Pairwise fun a b => fold a.1 ≠ fold b.1

/-- Without a schema every attribute that is no bookkeeping is handed out under its name, in order,
and none of its values is lost: a single one stands alone, and none or several stand in a list. -/
def PassesWhole (e : Entry) : Prop :=
  ∀ h : Hydrator, h.schema = none → ∃ out, h.hydrate e = .ok out ∧ out.dn = e.dn
    ∧ List.Forall₂ (fun p a => a.1 = p.1 ∧ RawValue.VerbatimTogether p.2 a.2)
      e.normalized out.attributes.toList

/-- Attributes are found under their names just when what stands under the keys of the names stands
under the keys. -/
lemma located_iff (h : e.attributes.keys.Nodup) : e.Located ↔ e.underNames ⊆ e.underKeys := by
  have hget : ∀ q vs, e.get? q = some vs ↔ (fold q, vs) ∈ e.underKeys := by
    intro q vs
    rw [get?, Option.map_eq_some_iff, underKeys, List.mem_map]
    constructor
    · rintro ⟨p, hp, rfl⟩
      exact ⟨(fold q, p), (OrderedMap.get?_eq_some_iff h).mp hp, rfl⟩
    · rintro ⟨⟨k, p⟩, hp, heq⟩
      obtain ⟨rfl, rfl⟩ := Prod.mk.inj heq
      exact ⟨p, (OrderedMap.get?_eq_some_iff h).mpr hp, rfl⟩
  rw [Located, underNames]
  simp only [hget]
  exact List.forall_mem_map.symm

/-- Names that fold apart have keys of their own. -/
lemma apart_iff : e.Apart ↔ (e.underNames.map (·.1)).Nodup := by
  rw [underNames, List.map_map, List.Nodup, List.pairwise_map]
  rfl

/-- What passes through whole is what each attribute has under its name. -/
lemma forall₂_verbatimTogether_iff {attributes : List (String × List RawValue)}
    {pairs : List (String × Value)} :
    List.Forall₂ (fun p a => a.1 = p.1 ∧ RawValue.VerbatimTogether p.2 a.2) attributes pairs
      ↔ attributes.map (fun p => (p.1, Hydrator.plain p.2)) = pairs := by
  have hpair : (fun (p : String × List RawValue) (a : String × Value) =>
      a.1 = p.1 ∧ RawValue.VerbatimTogether p.2 a.2)
        = fun p a => (p.1, Hydrator.plain p.2) = a := by
    ext p a
    rw [RawValue.verbatimTogether_iff, Prod.ext_iff, eq_comm (a := a.1)]
  rw [hpair, ← List.forall₂_map_left_iff, List.forall₂_eq_eq_eq]

/-- **An entry passes through whole** just when no name of it is there twice, bookkeeping apart. -/
lemma passesWhole_iff : e.PassesWhole ↔ (e.normalized.map (·.1)).Nodup := by
  have hkeys : (e.normalized.map fun p => (p.1, Hydrator.plain p.2)).map (·.1)
      = e.normalized.map (·.1) := List.map_map
  constructor
  · intro h
    obtain ⟨out, hout, -, hvalues⟩ := h ⟨.builtin, none, none⟩ rfl
    have hpass : Hydrator.passThrough e = out := Except.ok.inj hout
    have hnodup := OrderedMap.nodup_keys_ofList
      (e.normalized.map fun p => (p.1, Hydrator.plain p.2))
    have hlist : OrderedMap.ofList (e.normalized.map fun p => (p.1, Hydrator.plain p.2))
        = out.attributes := congrArg HydratedEntry.attributes hpass
    rw [hlist, OrderedMap.keys, ← forall₂_verbatimTogether_iff.mp hvalues, hkeys] at hnodup
    exact hnodup
  · intro h hydrator hschema
    refine ⟨Hydrator.passThrough e, ?_, rfl, forall₂_verbatimTogether_iff.mpr ?_⟩
    · rw [Hydrator.hydrate, hschema]
    · rw [Hydrator.passThrough, OrderedMap.ofList_eq (hkeys ▸ h)]

/-- **Attributes are found under their names, which fold apart**, just when the keys, in whatever
order, are those of the names. -/
lemma located_and_apart_iff (h : e.attributes.keys.Nodup) :
    e.Located ∧ e.Apart ↔ e.underNames.Perm e.underKeys := by
  have hkeys : e.underKeys.map (·.1) = e.attributes.keys := List.map_map
  rw [located_iff h, apart_iff]
  constructor
  · rintro ⟨hsub, hnodup⟩
    refine (List.subperm_of_subset hnodup.of_map hsub).perm_of_length_le ?_
    rw [underKeys, underNames, toList, List.length_map, List.length_map, List.length_map]
  · intro hperm
    exact ⟨hperm.subset, (hperm.map _).nodup_iff.mpr (hkeys ▸ h)⟩

/-- Names that fold apart differ, and so do those that are no bookkeeping. -/
lemma Apart.passesWhole (h : e.Apart) : e.PassesWhole := by
  refine passesWhole_iff.mpr (List.Nodup.sublist (List.filter_sublist.map _) ?_)
  rw [List.Nodup, List.pairwise_map]
  exact h.imp fun hne heq => hne (congrArg fold heq)

/-! ### All entries that are read -/

/-- **What can be said of an entry that is read.** Its attributes stand under the keys that the text
gives for them, of attributes with one key the last one. They are found under their names, which
fold apart, just when the keys are those of the names, in whatever order; then the entry passes
through whole, as it does just when no name is there twice, bookkeeping apart. So all three hold
where every key is that of its name. -/
theorem reload_views (text : String) (e : Entry)
    (hread : (Json.ofText? text).bind ofJson? = some e) :
    (∃ j dn attributes pairs, Json.ofText? text = some j
      ∧ j.fields? ["dn", "attributes"] = some [dn, some attributes]
      ∧ attributes.asMap? attributeOfJson? = some pairs
      ∧ e.attributes.toList = OrderedMap.lastValues pairs)
    ∧ (e.Located ↔ e.underNames ⊆ e.underKeys)
    ∧ (e.PassesWhole ↔ (e.normalized.map (·.1)).Nodup)
    ∧ (e.Located ∧ e.Apart ∧ e.PassesWhole ↔ e.underNames.Perm e.underKeys)
    ∧ (e.Keyed → e.Located ∧ e.Apart ∧ e.PassesWhole) := by
  obtain ⟨j, hj, hread⟩ := Option.bind_eq_some_iff.mp hread
  obtain ⟨dn, attributes, pairs, hfields, -, hpairs, hlist⟩ := exists_of_ofJson? hread
  have hnodup := nodup_keys_of_ofJson? hread
  have hall : e.Located ∧ e.Apart ∧ e.PassesWhole ↔ e.underNames.Perm e.underKeys := by
    rw [← located_and_apart_iff hnodup]
    exact and_congr_right fun _ => and_iff_left_of_imp Apart.passesWhole
  refine ⟨⟨j, dn, attributes, pairs, hj, hfields, hpairs, ?_⟩, located_iff hnodup, passesWhole_iff,
    hall, fun hkeyed => hall.mpr ?_⟩
  · rw [hlist, OrderedMap.toList_ofList]
  · rw [underNames, underKeys, hkeyed.attributes_eq, List.map_map]
    exact .refl _

/-- Two attributes with the same values, each under the key of the other one's name, are found. -/
theorem reload_views_exchanged :
    ∃ e : Entry, (Json.ofText?
        "\x7b\"attributes\":\x7b\"cn\":[\"SN\",[\"x\"]],\"sn\":[\"CN\",[\"x\"]]\x7d\x7d").bind ofJson?
        = some e
      ∧ e.toList = [("SN", [.text "x"]), ("CN", [.text "x"])]
      ∧ e.Located ∧ e.Apart ∧ e.PassesWhole := by
  have hread : (Json.ofText?
      "\x7b\"attributes\":\x7b\"cn\":[\"SN\",[\"x\"]],\"sn\":[\"CN\",[\"x\"]]\x7d\x7d").bind ofJson?
      = some ⟨none, ⟨[("cn", "SN", [.text "x"]), ("sn", "CN", [.text "x"])]⟩⟩ := by
    cbv
  obtain ⟨-, -, -, hviews, -⟩ := reload_views _ _ hread
  exact ⟨_, hread, rfl, hviews.mpr (by decide)⟩

/-- Not every entry that is read finds its attributes: a name that is its own key in capitals is not
found. Nor are names apart, and one of two attributes does not pass through, where two keys have one
name. -/
theorem not_every_reload_located :
    (∃ e : Entry, (Json.ofText?
        "\x7b\"attributes\":\x7b\"CN\":[\"CN\",[\"x\"]]\x7d\x7d").bind ofJson? = some e
      ∧ ¬ e.Located)
    ∧ ∃ e : Entry, (Json.ofText?
        "\x7b\"attributes\":\x7b\"a\":[\"cn\",[\"x\"]],\"b\":[\"cn\",[\"y\"]]\x7d\x7d").bind ofJson?
        = some e
      ∧ ¬ e.Located ∧ ¬ e.Apart ∧ ¬ e.PassesWhole := by
  refine ⟨⟨⟨none, ⟨[("CN", "CN", [.text "x"])]⟩⟩, by cbv, ?_⟩,
    ⟨none, ⟨[("a", "cn", [.text "x"]), ("b", "cn", [.text "y"])]⟩⟩, by cbv, ?_, ?_, ?_⟩
  · rw [located_iff (by decide)]
    decide
  · rw [located_iff (by decide)]
    decide
  · rw [apart_iff]
    decide
  · rw [passesWhole_iff]
    decide

end Entry

end DirectoryLens
