/-
The attributes that a search asks for are enough to hydrate what it finds.

* `ObjectSchema.Unshadowed`: no attribute bears a declared name that leads to another one;
* `ObjectSchema.Unshadowed.matches_iff`: then an attribute stands for a name when it bears the
  directory name of that;
* `assigned_offers_filter`: attributes that stand for no name asked for may be left out;
* `Entry.restrict`: an entry without the attributes that a search does not ask for;
* `Compiler.hydrate_restrict`: it hydrates like the whole entry.
-/
import DirectoryLens.Proofs.Entry.Source
import DirectoryLens.Proofs.Expression.Meaning
import DirectoryLens.Search.Compiler

namespace DirectoryLens

open Text

variable {α : Type}

/-! ### Attributes and directory names -/

namespace ObjectSchema

/-- No attribute bears a declared name that leads to another attribute. -/
def Unshadowed (s : ObjectSchema) (attributes : List (String × α)) : Prop :=
  ∀ p ∈ attributes, ∀ q ∈ s.attributes.toList, fold q.1 = fold p.1 → fold q.2 = fold p.1

instance (s : ObjectSchema) (attributes : List (String × α)) :
    Decidable (s.Unshadowed attributes) :=
  inferInstanceAs (Decidable (∀ p ∈ attributes, ∀ q ∈ s.attributes.toList, _))

/-- Where the declared names differ beyond their case, and no attribute bears one that leads
elsewhere, an attribute stands for a name when it bears the directory name of that. -/
lemma Unshadowed.matches_iff {s : ObjectSchema} {attributes : List (String × α)}
    (h : s.Unshadowed attributes) (hs : s.DistinctNames) {p : String × α} (hp : p ∈ attributes)
    (r : String) : s.Matches p.1 r ↔ fold p.1 = fold (s.directoryName r) := by
  rw [directoryName]
  cases hd : s.directoryName? r with
  | none =>
      constructor
      · rintro (hown | ⟨n, hn, hnr⟩)
        · exact hown
        · -- a name mapped to the attribute would be a declared one that folds like `r`
          rw [namesMappedTo_eq] at hn
          obtain ⟨q, hq, rfl⟩ := List.mem_map.mp hn
          have hdeclared := hs.directoryName? (List.mem_of_mem_filter hq)
          rw [directoryName?, hnr, ← directoryName?, hd] at hdeclared
          cases hdeclared
      · exact .inl
  | some d =>
      refine ⟨?_, matches_of_directoryName? hd⟩
      obtain ⟨q, hq, hqr, rfl⟩ := exists_mem_of_directoryName? hd
      rintro (hown | ⟨n, hn, hnr⟩)
      · exact (h p hp q hq (hqr.trans hown.symm)).symm
      · exact hs.fold_eq_of_mem_namesMappedTo hq hn (hnr.trans hqr.symm)

/-- The directory names of several names are those of each of them, without those that fold like an
earlier one. -/
lemma directoryNames_eq (s : ObjectSchema) (names : List String) :
    s.directoryNames names = distinctNames (names.map s.directoryName) := by
  have hfound : ∀ (names found : List String),
      names.foldl (fun found name =>
          let d := s.directoryName name
          if found.any fun f => fold f == fold d then found else found ++ [d]) found
        = found ++ remaining (distinctNames (names.map s.directoryName)) found := by
    intro names
    induction names with
    | nil => exact fun found => (List.append_nil found).symm
    | cons n names ih =>
        intro found
        rw [List.foldl_cons, ih, List.map_cons, distinctNames, remaining, remaining]
        by_cases hany : (found.any fun f => fold f == fold (s.directoryName n)) = true
        · -- the directory name of `n` has been found already
          have hn : fold (s.directoryName n) ∈ found.map fold := by simpa using hany
          rw [if_pos hany, List.filter_cons_of_neg (by simpa using hn), List.filter_filter]
          refine congrArg (found ++ ·) (List.filter_congr fun d _ => ?_)
          rw [← Bool.decide_and, decide_eq_decide]
          refine ⟨fun hd => ⟨hd, ?_⟩, And.left⟩
          intro heq
          exact hd (heq ▸ hn)
        · have hn : fold (s.directoryName n) ∉ found.map fold := by simpa using hany
          rw [if_neg hany, List.filter_cons_of_pos (by simpa using hn), List.filter_filter,
            List.append_assoc, List.singleton_append]
          refine congrArg (fun ds => found ++ s.directoryName n :: ds)
            (List.filter_congr fun d _ => ?_)
          rw [← Bool.decide_and, decide_eq_decide, List.map_append, List.mem_append, not_or,
            List.map_singleton, List.mem_singleton]
  rw [directoryNames, hfound, List.nil_append, remaining]
  exact List.filter_eq_self.mpr fun d _ => by simp

/-- The directory names of several names are those of each of them, up to case. -/
lemma mem_fold_directoryNames {s : ObjectSchema} {names : List String} {k : String} :
    k ∈ (s.directoryNames names).map fold ↔ ∃ n ∈ names, fold (s.directoryName n) = k := by
  rw [directoryNames_eq, List.mem_map]
  constructor
  · rintro ⟨d, hd, hk⟩
    obtain ⟨n, hn, rfl⟩ := List.mem_map.mp (mem_of_mem_distinctNames hd)
    exact ⟨n, hn, hk⟩
  · rintro ⟨n, hn, rfl⟩
    exact exists_mem_distinctNames (List.mem_map_of_mem hn)

end ObjectSchema

/-! ### Attributes that stand for nothing asked for -/

/-- Nothing is assigned of offers that are not asked for. -/
lemma assigned_eq_nil {asked : List String} : ∀ {offers : List (String × α)},
    (∀ o ∈ offers, asked.find? (fun r => fold r == fold o.1) = none) → assigned asked offers = []
  | [], _ => rfl
  | (n, a) :: offers, h => by
      have hn : asked.find? (fun r => fold r == fold n) = none := h (n, a) List.mem_cons_self
      rw [assigned, hn]
      exact assigned_eq_nil fun o ho => h o (List.mem_cons_of_mem _ ho)

/-- Attributes that stand for no name asked for may be left out. -/
lemma assigned_offers_filter {s : ObjectSchema} {keep : String × α → Bool} :
    ∀ {attributes : List (String × α)} {asked : List String},
    (∀ p ∈ attributes, keep p = false → ∀ r ∈ asked, ¬ s.Matches p.1 r) →
    assigned asked (offers s (attributes.filter keep)) = assigned asked (offers s attributes)
  | [], _, _ => rfl
  | p :: attributes, asked, h => by
      have hoffers : ∀ rest : List (String × α), offers s (p :: rest)
          = ((s.namesServed p.1).map fun n => (n, p.2)) ++ offers s rest := fun _ => rfl
      have hrest : ∀ names, assigned (remaining asked names) (offers s (attributes.filter keep))
          = assigned (remaining asked names) (offers s attributes) := fun names =>
        assigned_offers_filter fun q hq hkeep r hr =>
          h q (List.mem_cons_of_mem p hq) hkeep r (mem_remaining.mp hr).1
      cases hkeep : keep p with
      | true =>
          rw [List.filter_cons_of_pos hkeep, hoffers, hoffers, assigned_append, assigned_append,
            hrest]
      | false =>
          have hnone : ∀ n ∈ s.namesServed p.1, ∀ r ∈ asked, fold n ≠ fold r :=
            fun n hn r hr hnr => h p List.mem_cons_self hkeep r hr
              (ObjectSchema.matches_iff.mpr ⟨n, hn, hnr⟩)
          have hserved : ((s.namesServed p.1).map fun n => (n, p.2)).map (·.1)
              = s.namesServed p.1 := by
            rw [List.map_map]
            exact List.map_id _
          have hremaining : remaining asked (s.namesServed p.1) = asked := by
            rw [remaining, List.filter_eq_self]
            intro r hr
            rw [decide_eq_true_eq, List.mem_map]
            rintro ⟨n, hn, hnr⟩
            exact hnone n hn r hr hnr
          have hnil : assigned asked ((s.namesServed p.1).map fun n => (n, p.2)) = [] := by
            refine assigned_eq_nil fun o ho => List.find?_eq_none.mpr fun r hr => ?_
            obtain ⟨n, hn, rfl⟩ := List.mem_map.mp ho
            rw [beq_iff_eq]
            exact fun hrn => hnone n hn r hr hrn.symm
          have hself := hrest (s.namesServed p.1)
          rw [hremaining] at hself
          rw [List.filter_cons_of_neg (by simp [hkeep]), hoffers, assigned_append, hnil, hserved,
            hremaining, List.nil_append, hself]

/-- The first attribute that stands for a name stays when others are left out. -/
lemma ObjectSchema.source?_filter {s : ObjectSchema} {keep : String × α → Bool}
    {attributes : List (String × α)} {r : String}
    (h : ∀ p ∈ attributes, keep p = false → ¬ s.Matches p.1 r) :
    s.source? (attributes.filter keep) r = s.source? attributes r := by
  rw [source?, source?, List.find?_filter]
  refine List.find?_congr fun p hp => ?_
  cases hkeep : keep p with
  | true => simp
  | false => simp [h p hp hkeep]

/-! ### Entries without other attributes -/

namespace Entry

/-- The entry without the attributes that no name of a list folds like. -/
def restrict (e : Entry) (names : List String) : Entry :=
  { e with attributes := ⟨e.attributes.toList.filter fun p => fold p.2.1 ∈ names.map fold⟩ }

/-- What is left of the attributes that are no bookkeeping. -/
lemma normalized_restrict (e : Entry) (names : List String) :
    (e.restrict names).normalized
      = e.normalized.filter fun p => fold p.1 ∈ names.map fold := by
  rw [normalized, normalized, toList, toList, restrict, List.filter_map, List.filter_map,
    List.filter_map, List.filter_filter, List.filter_filter]
  congr 1
  exact List.filter_congr fun p _ => Bool.and_comm _ _

end Entry

/-! ### Searches and what they find -/

namespace Hydrator

variable {h : Hydrator} {s : ObjectSchema} {e : Entry}

/-- An entry hydrates as it does without attributes that stand for nothing asked for. -/
lemma hydrate_restrict_of_not_matches (hs : h.schema = some s) {names : List String}
    (hnames : ∀ p ∈ e.normalized, fold p.1 ∉ names.map fold →
      ∀ r ∈ h.asked, ¬ s.Matches p.1 r) :
    h.hydrate (e.restrict names) = h.hydrate e := by
  have hkeep : ∀ p ∈ e.normalized, decide (fold p.1 ∈ names.map fold) = false →
      ∀ r ∈ h.asked, ¬ s.Matches p.1 r :=
    fun p hp hfold => hnames p hp (of_decide_eq_false hfold)
  have hserved : h.served s (e.restrict names) = h.served s e := by
    rw [served, served, Entry.normalized_restrict]
    exact assigned_offers_filter hkeep
  have hdefaulted : h.defaulted s (e.restrict names) = h.defaulted s e := by
    rw [defaulted, defaulted, remaining_offers, remaining_offers, Entry.normalized_restrict]
    congr 1
    refine List.filter_congr fun r hr => ?_
    rw [ObjectSchema.source?_filter fun p hp hfold => hkeep p hp hfold r hr]
  rw [hydrate_eq hs, hydrate_eq hs, hserved, hdefaulted]
  rfl

/-- A name that an attribute stands for is a key of the hydrated entry, in the first spelling in
which it is asked for. -/
lemma exists_mem_keys_of_matches {out : HydratedEntry} (hs : h.schema = some s)
    (hout : h.hydrate e = .ok out) {name : String} (hname : name ∈ h.selection)
    {p : String × List RawValue} (hp : p ∈ e.normalized) (hmatches : s.Matches p.1 name) :
    ∃ r ∈ out.attributes.keys, h.selection.find? (fun q => fold q == fold name) = some r := by
  obtain ⟨r, hr, hrname, hfind⟩ := exists_find?_selection hname
  have hmatches' : s.Matches p.1 r := by
    rwa [ObjectSchema.Matches, hrname, ← ObjectSchema.Matches]
  exact ⟨r, ((hydrates_of_hydrate hs hout).mem_keys r hr).mpr (.inl ⟨p, hp, hmatches'⟩), hfind⟩

end Hydrator

namespace Compiler

/-- A request asks for the directory names of the selected names. -/
lemma attributes_of_compileSelecting {c : Compiler} {query : Expression} {selected : List String}
    {log log' : CallLog} {request : SearchRequest}
    (h : (c.compileSelecting query selected).run.run log = (.ok request, log')) :
    request.attributes = c.attributes selected := by
  obtain ⟨whole, mid, -, h⟩ := Writing.bind_eq_ok h
  obtain ⟨f, mid', -, h⟩ := Writing.bind_eq_ok h
  cases h
  rfl

/-- **The attributes that a search asks for are enough to hydrate what it finds.** Where the
declared names differ beyond their case, and no attribute of an entry bears one that leads
elsewhere, the entry hydrates, or is refused, just as it does without the attributes that the
request for a selection does not ask for. A selected name whose directory name the entry has is a
key of what it hydrates to, in the first of the selected spellings that fold alike. -/
theorem hydrate_restrict {c : Compiler} {s : ObjectSchema} (hc : c.schema = some s)
    (hs : s.DistinctNames) {query : Expression} {selected : List String} {log log' : CallLog}
    {request : SearchRequest}
    (hrequest : (c.compileSelecting query selected).run.run log = (.ok request, log'))
    (registry : Registry) {e : Entry} (he : s.Unshadowed e.normalized) :
    Hydrator.hydrate ⟨registry, some s, some selected⟩ (e.restrict request.attributes)
        = Hydrator.hydrate ⟨registry, some s, some selected⟩ e
      ∧ ∀ out, Hydrator.hydrate ⟨registry, some s, some selected⟩ e = .ok out →
        ∀ name ∈ selected, ∀ p ∈ e.normalized, fold p.1 = fold (s.directoryName name) →
          ∃ r ∈ out.attributes.keys, selected.find? (fun q => fold q == fold name) = some r := by
  have hattributes : request.attributes = s.directoryNames selected := by
    rw [attributes_of_compileSelecting hrequest, attributes, hc]
  refine ⟨?_, ?_⟩
  · rw [hattributes]
    refine Hydrator.hydrate_restrict_of_not_matches rfl fun p hp hfold r hr hmatches => hfold ?_
    rw [he.matches_iff hs hp] at hmatches
    exact ObjectSchema.mem_fold_directoryNames.mpr
      ⟨r, mem_of_mem_distinctNames hr, hmatches.symm⟩
  · intro out hout name hname p hp hfold
    exact Hydrator.exists_mem_keys_of_matches rfl hout hname hp
      ((he.matches_iff hs hp name).mpr hfold)

/-- A compiler for the schema with one flag. -/
def flagCompiler : Compiler :=
  ⟨.builtin, .default, some Expression.flagSchema⟩

/-- An entry with a flag, a name, and octets that stand for nothing that is selected. -/
def accountEntry : Entry :=
  .ofPairs [("useraccountcontrol", [.text "514"]), ("objectGUID", [.binary [0x01]]),
    ("cn", [.text "jdoe"])]

/-- The request for two names, one of them selected twice, leaves out the octets, without which the
entry hydrates alike. -/
theorem hydrate_restrict_accountEntry :
    ∃ request, (flagCompiler.compileSelecting (.present "cn") ["CN", "Disabled", "cn"]).run.run []
        = (.ok request, [])
      ∧ (accountEntry.restrict request.attributes).toList
        = [("useraccountcontrol", [.text "514"]), ("cn", [.text "jdoe"])]
      ∧ Hydrator.hydrate ⟨.builtin, some Expression.flagSchema, some ["CN", "Disabled", "cn"]⟩
          (accountEntry.restrict request.attributes)
        = Hydrator.hydrate ⟨.builtin, some Expression.flagSchema, some ["CN", "Disabled", "cn"]⟩
          accountEntry
      ∧ ∃ r ∈ ["Disabled", "CN"],
        ["CN", "Disabled", "cn"].find? (fun q => fold q == fold "cn") = some r := by
  have hrequest :
      (flagCompiler.compileSelecting (.present "cn") ["CN", "Disabled", "cn"]).run.run []
      = (.ok ⟨.item "cn" .equal [[], []], "", .subtree, ["CN", "userAccountControl"], some 1000⟩,
        []) := rfl
  have hout : Hydrator.hydrate
      ⟨.builtin, some Expression.flagSchema, some ["CN", "Disabled", "cn"]⟩ accountEntry
      = .ok ⟨none, ⟨[("Disabled", .boolean true), ("CN", .string "jdoe")]⟩⟩ := rfl
  obtain ⟨hsame, hkeys⟩ := hydrate_restrict (c := flagCompiler) rfl (List.nodup_singleton _)
    hrequest .builtin (e := accountEntry) (by decide)
  refine ⟨_, hrequest, rfl, hsame, ?_⟩
  exact hkeys _ hout "cn" (by decide) ("cn", [.text "jdoe"]) (by decide) rfl

/-- Not every selected name whose directory name an entry has is a key: of two spellings of one
name only the first one is. -/
theorem not_every_selected_name_is_key :
    ¬ ∀ (c : Compiler) (s : ObjectSchema), c.schema = some s → s.DistinctNames →
      ∀ (query : Expression) (selected : List String) (log log' : CallLog)
        (request : SearchRequest),
        (c.compileSelecting query selected).run.run log = (.ok request, log') →
      ∀ (registry : Registry) (e : Entry), s.Unshadowed e.toList →
      ∀ out, Hydrator.hydrate ⟨registry, some s, some selected⟩ e = .ok out →
      ∀ name ∈ selected, ∀ p ∈ e.normalized, fold p.1 = fold (s.directoryName name) →
        name ∈ out.attributes.keys := by
  intro h
  have hrequest : (flagCompiler.compileSelecting (.present "cn") ["CN", "cn"]).run.run []
      = (.ok ⟨.item "cn" .equal [[], []], "", .subtree, ["CN"], some 1000⟩, []) := rfl
  have hout : Hydrator.hydrate ⟨.builtin, some Expression.flagSchema, some ["CN", "cn"]⟩
      accountEntry = .ok ⟨none, ⟨[("CN", .string "jdoe")]⟩⟩ := rfl
  have hkey : "cn" ∈ ["CN"] := h flagCompiler _ rfl (List.nodup_singleton _) _ _ _ _ _ hrequest
    .builtin accountEntry (by decide) _ hout "cn" (by decide) ("cn", [.text "jdoe"]) (by decide)
    rfl
  simp at hkey

end Compiler

end DirectoryLens
