/-
Which attribute of an entry a name is read from.

* `ObjectSchema.source?_append`: where the attribute of a name's directory name is there, the name
  is read from it unless one before it stands for the name as well;
* `Hydrator.exists_hydrate_perm`: entries that agree on the first attribute for every name hydrate
  alike, up to order;
* `Hydrator.hydrate_reads_first_attribute`: both of these, said of a hydration that succeeds.

A directory name does not decide alone: an attribute that bears a name's own spelling stands for
the name too, whatever directory name that is mapped to, and the attribute that comes first is the
one that counts.
-/
import DirectoryLens.Proofs.Entry.Specification
import DirectoryLens.Proofs.Schema.Lookup

namespace DirectoryLens

open Text

namespace ObjectSchema

/-- The attribute that a name is mapped to stands for the name. -/
lemma matches_of_directoryName? {s : ObjectSchema} {name d x : String}
    (hd : s.directoryName? name = some d) (hx : fold x = fold d) : s.Matches x name := by
  obtain ⟨n, hn, hname⟩ := exists_mem_namesMappedTo hd
  refine .inr ⟨n, ?_, hname⟩
  rw [namesMappedTo, hx, ← namesMappedTo]
  exact hn

/-- The attribute of a name's directory name stands for the name; one that is not mapped is its
own. -/
lemma matches_of_fold_directoryName {s : ObjectSchema} {name x : String}
    (hx : fold x = fold (s.directoryName name)) : s.Matches x name := by
  cases hd : s.directoryName? name with
  | none =>
      rw [directoryName, hd, Option.getD_none] at hx
      exact .inl hx
  | some d =>
      rw [directoryName, hd, Option.getD_some] at hx
      exact matches_of_directoryName? hd hx

/-- Where the attribute of a name's directory name is there, the name is read from it unless one
before it stands for the name as well. -/
lemma source?_append {α : Type} {s : ObjectSchema} {name : String}
    (before after : List (String × α)) {p : String × α}
    (hp : fold p.1 = fold (s.directoryName name)) :
    s.source? (before ++ p :: after) name
      = some ((before.find? fun q => s.Matches q.1 name).getD p) := by
  have hmatches : decide (s.Matches p.1 name) = true :=
    decide_eq_true (matches_of_fold_directoryName hp)
  rw [source?, List.find?_append, List.find?_cons, hmatches]
  cases before.find? fun q => s.Matches q.1 name <;> rfl

end ObjectSchema

namespace Hydrator

/-- A name is read under the first spelling in which it is asked for. -/
lemma exists_find?_selection {h : Hydrator} {name : String} (hname : name ∈ h.selection) :
    ∃ r ∈ h.asked, fold r = fold name
      ∧ h.selection.find? (fun q => fold q == fold name) = some r := by
  cases hfind : h.selection.find? fun q => fold q == fold name with
  | none =>
      have hmiss := List.find?_eq_none.mp hfind name hname
      exact absurd (beq_self_eq_true _) hmiss
  | some r =>
      rw [← find?_distinctNames, ← asked] at hfind
      exact ⟨r, List.mem_of_find?_eq_some hfind, by simpa using List.find?_some hfind, rfl⟩

/-- Names that fold alike are read alike. -/
lemma Reads.of_fold_eq {registry : Registry} {s : ObjectSchema} {r name : String}
    {values : List RawValue} {v : Value} (hr : fold r = fold name)
    (h : Reads registry s r values v) : Reads registry s name values v := by
  have hconverter : s.converterFor r = s.converterFor name := by
    rw [ObjectSchema.converterFor, hr, ← ObjectSchema.converterFor]
  rcases h with ⟨h, hv⟩ | ⟨h, hget, hvs, hv⟩
  · exact .plain (hconverter ▸ h) hv
  · exact .converted (hconverter ▸ h) hget hvs hv

/-- The same attribute stands first for names that fold alike. -/
lemma source?_of_fold_eq {α : Type} {s : ObjectSchema} {attributes : List (String × α)}
    {r name : String} (hr : fold r = fold name) :
    s.source? attributes r = s.source? attributes name := by
  have hmatches : ∀ x, s.Matches x r ↔ s.Matches x name := by
    intro x
    rw [ObjectSchema.Matches, hr, ← ObjectSchema.Matches]
  simp only [ObjectSchema.source?, hmatches]

/-- **Entries that agree on the first attribute for every name** hydrate alike, up to order. -/
theorem exists_hydrate_perm {h : Hydrator} {s : ObjectSchema} (hs : h.schema = some s)
    {e e' : Entry} {out : HydratedEntry} (hout : h.hydrate e = .ok out) (hdn : e'.dn = e.dn)
    (hsource : ∀ name ∈ h.selection,
      s.source? e'.normalized name = s.source? e.normalized name) :
    ∃ out', h.hydrate e' = .ok out' ∧ out'.dn = out.dn
      ∧ out'.attributes.toList.Perm out.attributes.toList := by
  have hasked : ∀ r ∈ h.asked, s.source? e'.normalized r = s.source? e.normalized r :=
    fun r hr => hsource r (mem_of_mem_distinctNames hr)
  have hserved : (h.served s e').Perm (h.served s e) := by
    refine (List.perm_ext_iff_of_nodup (h.nodup_served s e').of_map
      (h.nodup_served s e).of_map).mpr ?_
    rintro ⟨r, values⟩
    rw [mem_served, mem_served]
    exact and_congr_right fun hr => by rw [hasked r hr]
  have hdefaulted : h.defaulted s e' = h.defaulted s e := by
    rw [defaulted, defaulted, remaining_offers, remaining_offers]
    congr 1
    exact List.filter_congr fun r hr => by rw [hasked r hr]
  obtain ⟨pairs, hread, rfl⟩ := (hydrate_eq_ok hs).mp hout
  obtain ⟨pairs', hread', hperm⟩ := exists_perm_of_mapM_eq_ok hserved hread
  refine ⟨_, (hydrate_eq_ok hs).mpr ⟨pairs', hread', rfl⟩, hdn, ?_⟩
  rw [hdefaulted]
  exact hperm.append_right _

/-- **The attribute that a name is read from.** Of a hydration that succeeds, a name whose directory
name is there, its own if it is not mapped, is read from the attribute of that, or from the first
one before it that stands for the name as well. The pairs stay, up to order, when the first
attribute for every name does; so they do in any order of the attributes when no two of these stand
for one name. -/
theorem hydrate_reads_first_attribute {h : Hydrator} {s : ObjectSchema} (hs : h.schema = some s)
    {e : Entry} {out : HydratedEntry} (hout : h.hydrate e = .ok out) :
    (∀ name ∈ h.selection, ∀ before p after, e.normalized = before ++ p :: after →
      fold p.1 = fold (s.directoryName name) →
        ∃ r v, h.selection.find? (fun q => fold q == fold name) = some r
          ∧ out.get? r = some v
          ∧ Reads h.registry s name ((before.find? fun q => s.Matches q.1 name).getD p).2 v)
    ∧ (∀ e' : Entry, e'.dn = e.dn →
        (∀ name ∈ h.selection, s.source? e'.normalized name = s.source? e.normalized name) →
        ∃ out', h.hydrate e' = .ok out' ∧ out'.dn = out.dn
          ∧ out'.attributes.toList.Perm out.attributes.toList)
    ∧ (∀ e' : Entry, e'.dn = e.dn → e'.toList.Perm e.toList →
        (∀ name ∈ h.selection, {p | p ∈ e.normalized ∧ s.Matches p.1 name}.Subsingleton) →
        ∃ out', h.hydrate e' = .ok out' ∧ out'.dn = out.dn
          ∧ out'.attributes.toList.Perm out.attributes.toList) := by
  refine ⟨?_, ?_, ?_⟩
  · intro name hname before p after hsplit hp
    obtain ⟨r, hr, hrname, hfind⟩ := exists_find?_selection hname
    have hsource : s.source? e.normalized r
        = some ((before.find? fun q => s.Matches q.1 name).getD p) := by
      rw [source?_of_fold_eq hrname, hsplit]
      exact ObjectSchema.source?_append before after hp
    obtain ⟨v, hv, hreads⟩ := (hydrates_of_hydrate hs hout).matched r hr _ hsource
    exact ⟨r, v, hfind, hv, hreads.of_fold_eq hrname⟩
  · exact fun e' hdn hsource => exists_hydrate_perm hs hout hdn hsource
  · intro e' hdn hperm hone
    refine exists_hydrate_perm hs hout hdn fun name hname => ?_
    have hnormalized : e.normalized.Perm e'.normalized := hperm.symm.filter _
    refine (List.find?_eq_find?_of_perm hnormalized ?_).symm
    simpa using hone name hname

/-- A schema that maps the name `mail`, which is also the name of an attribute, elsewhere. -/
def mailSchema : ObjectSchema :=
  (ObjectSchema.ofNames "directory" "person").setAttributes [("mail", "userPrincipalName")]

/-- What is asked of a schema that maps `mail` elsewhere, and does not map `title`. -/
def mailHydrator : Hydrator :=
  ⟨.builtin, some mailSchema, some ["mail", "title"]⟩

/-- An entry with an attribute `mail` before the one that the name is mapped to. -/
def mailEntry : Entry :=
  .ofPairs [("mail", [.text "a"]), ("userPrincipalName", [.text "b"]), ("TITLE", [.text "c"])]

/-- The same entry, the two attributes the other way round. -/
def mailEntryReversed : Entry :=
  .ofPairs [("userPrincipalName", [.text "b"]), ("mail", [.text "a"]), ("TITLE", [.text "c"])]

/-- What is hydrated of the entry in that order. -/
lemma hydrate_mailEntryReversed : mailHydrator.hydrate mailEntryReversed
    = .ok ⟨none, ⟨[("mail", .string "b"), ("title", .string "c")]⟩⟩ := rfl

/-- A name is not always read from the attribute of its directory name, and the order of the
attributes counts: `mail` is read from the attribute of that name where this comes first. -/
theorem not_always_read_from_directoryName :
    (¬ ∀ (h : Hydrator) (s : ObjectSchema) (e : Entry) (out : HydratedEntry),
      h.schema = some s → h.hydrate e = .ok out →
      ∀ name ∈ h.selection, ∀ p ∈ e.normalized, fold p.1 = fold (s.directoryName name) →
        ∃ r v, h.selection.find? (fun q => fold q == fold name) = some r
          ∧ out.get? r = some v ∧ Reads h.registry s name p.2 v)
    ∧ ¬ ∀ (h : Hydrator) (s : ObjectSchema) (e e' : Entry) (out : HydratedEntry),
      h.schema = some s → h.hydrate e = .ok out → e'.dn = e.dn → e'.toList.Perm e.toList →
        ∃ out', h.hydrate e' = .ok out'
          ∧ out'.attributes.toList.Perm out.attributes.toList := by
  have hout : mailHydrator.hydrate mailEntry
      = .ok ⟨none, ⟨[("mail", .string "a"), ("title", .string "c")]⟩⟩ := rfl
  refine ⟨fun h => ?_, fun h => ?_⟩
  · obtain ⟨r, v, hr, hv, hreads⟩ := h mailHydrator mailSchema mailEntry _ rfl hout "mail"
      List.mem_cons_self ("userPrincipalName", [.text "b"])
      (List.mem_cons_of_mem _ List.mem_cons_self) rfl
    have hmail : "mail" = r := Option.some.inj hr
    subst hmail
    have ha : Value.string "a" = v := Option.some.inj hv
    subst ha
    rcases hreads with ⟨-, hvalue⟩ | ⟨⟨⟩, -⟩
    have hb : Value.string "b" = .string "a" := RawValue.verbatimTogether_iff.mp hvalue
    simp at hb
  · obtain ⟨out', hout', hperm⟩ := h mailHydrator mailSchema mailEntry mailEntryReversed _ rfl hout
      rfl (List.Perm.swap _ _ _)
    rw [hydrate_mailEntryReversed] at hout'
    cases hout'
    exact absurd (hperm.mem_iff.mp List.mem_cons_self) (by simp)

/-- The name `mail` is read from the attribute that it is mapped to where this comes first, the name
`title`, which is not mapped, from its own, and an attribute that stands for no name may go
anywhere. -/
theorem hydrate_reads_first_attribute_mailEntryReversed :
    let out := HydratedEntry.mk none ⟨[("mail", .string "b"), ("title", .string "c")]⟩
    mailHydrator.hydrate mailEntryReversed = .ok out
    ∧ (∃ r v, mailHydrator.selection.find? (fun q => fold q == fold "mail") = some r
      ∧ out.get? r = some v ∧ Reads .builtin mailSchema "mail" [.text "b"] v)
    ∧ (∃ r v, mailHydrator.selection.find? (fun q => fold q == fold "title") = some r
      ∧ out.get? r = some v ∧ Reads .builtin mailSchema "title" [.text "c"] v)
    ∧ ∃ out', mailHydrator.hydrate (.ofPairs [("sn", [.text "d"]), ("TITLE", [.text "c"]),
        ("userPrincipalName", [.text "b"]), ("mail", [.text "a"])]) = .ok out' ∧ out'.dn = none
      ∧ out'.attributes.toList.Perm out.attributes.toList := by
  intro out
  obtain ⟨hname, hsource, -⟩ := hydrate_reads_first_attribute rfl hydrate_mailEntryReversed
  refine ⟨hydrate_mailEntryReversed, ?_, ?_, ?_⟩
  · exact hname "mail" (by decide) [] _ _ rfl rfl
  · exact hname "title" (by decide)
      [("userPrincipalName", [.text "b"]), ("mail", [.text "a"])] ("TITLE", [.text "c"]) [] rfl rfl
  · refine hsource _ rfl fun name hname => ?_
    rcases List.mem_cons.mp hname with rfl | hname
    · rfl
    · rw [List.mem_singleton.mp hname]
      rfl

end Hydrator

end DirectoryLens
