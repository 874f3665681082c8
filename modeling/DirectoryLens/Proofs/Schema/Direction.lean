/-
From the program's names to the directory's, and back.

* `ObjectSchema.Overruled`: a name is declared with a directory name, and behind it in another
  spelling with another one;
* `ObjectSchema.fold_directoryName_or_overruled`: a name that is listed for a directory name leads
  back to it, unless it is overruled so;
* `ObjectSchema.Coherent`: names that fold alike are declared with directory names that do;
* `IndexedSchema.directions_agree_iff`: the two directions of a schema agree just when it is
  coherent.
-/
import DirectoryLens.Proofs.Schema.Declaration

namespace DirectoryLens

open Text

namespace ObjectSchema

variable {s : ObjectSchema} {n d : String}

/-- A name is declared with a directory name, and behind it in another spelling with another
one. -/
def Overruled (s : ObjectSchema) (n d : String) : Prop :=
  ∃ p q : String × String, [p, q].Sublist s.attributes.toList
    ∧ (p.1 = n ∧ fold p.2 = fold d) ∧ fold q.1 = fold n ∧ fold q.2 ≠ fold d

/-- Names that fold alike are declared with directory names that fold alike. -/
def Coherent (s : ObjectSchema) : Prop :=
  ∀ p ∈ s.attributes.toList, ∀ q ∈ s.attributes.toList, fold p.1 = fold q.1 → fold p.2 = fold q.2

/-- A name that is listed for a directory name is declared with it, up to case. -/
lemma exists_mem_of_mem_namesMappedTo (h : n ∈ s.namesMappedTo d) :
    ∃ p ∈ s.attributes.toList, p.1 = n ∧ fold p.2 = fold d := by
  rw [namesMappedTo_eq] at h
  obtain ⟨p, hp, hn⟩ := List.mem_map.mp h
  obtain ⟨hmem, hd⟩ := List.mem_filter.mp hp
  exact ⟨p, hmem, hn, eq_of_beq hd⟩

/-- A declared name is mapped: to what the last declared name that folds alike leads to, and no name
that folds alike is declared behind that. -/
lemma exists_last_of_mem {p : String × String} (hp : p ∈ s.attributes.toList) :
    ∃ q before behind, s.attributes.toList = before ++ q :: behind
      ∧ fold q.1 = fold p.1 ∧ (∀ r ∈ behind, fold r.1 ≠ fold p.1)
      ∧ s.directoryName? p.1 = some q.2 := by
  rw [directoryName?_eq]
  cases hfind : s.attributes.toList.reverse.find? fun q => fold q.1 == fold p.1 with
  | none =>
      have hmiss := List.find?_eq_none.mp hfind p (List.mem_reverse.mpr hp)
      simp at hmiss
  | some q =>
      obtain ⟨hq, behind, before, hsplit, hbehind⟩ := List.find?_eq_some_iff_append.mp hfind
      refine ⟨q, before.reverse, behind.reverse, ?_, eq_of_beq hq, fun r hr => ?_, rfl⟩
      · rw [← List.reverse_reverse s.attributes.toList, hsplit, List.reverse_append,
          List.reverse_cons, List.append_assoc, List.singleton_append]
      · simpa using hbehind r (List.mem_reverse.mp hr)

/-- **A name that is listed for a directory name leads back to it**, unless another spelling of the
name is declared behind it with another directory name. -/
theorem fold_directoryName_or_overruled (h : n ∈ s.namesMappedTo d) :
    fold (s.directoryName n) = fold d ∨ s.Overruled n d := by
  obtain ⟨p, hp, rfl, hd⟩ := exists_mem_of_mem_namesMappedTo h
  obtain ⟨q, before, behind, hsplit, hfold, hbehind, hname⟩ := exists_last_of_mem hp
  rw [directoryName, hname, Option.getD_some]
  refine or_iff_not_imp_left.mpr fun hne => ⟨p, q, ?_, ⟨rfl, hd⟩, hfold, hne⟩
  -- `p` is not the last name that folds alike, nor behind that, so it stands before it
  rw [hsplit] at hp ⊢
  have hbefore : p ∈ before := by
    rcases List.mem_append.mp hp with hp | hp
    · exact hp
    · rcases List.mem_cons.mp hp with rfl | hp
      · exact absurd hd hne
      · exact absurd rfl (hbehind p hp)
  exact (List.singleton_sublist.mpr hbefore).append ((List.nil_sublist _).cons_cons q)

/-- **Where the two directions agree**: every name that is listed for a directory name leads back to
it just when names that fold alike are declared with directory names that fold alike. -/
theorem forall_fold_directoryName_iff :
    (∀ n d, n ∈ s.namesMappedTo d → fold (s.directoryName n) = fold d) ↔ s.Coherent := by
  constructor
  · intro h p hp q hq hfold
    have hlisted : ∀ r ∈ s.attributes.toList, r.1 ∈ s.namesMappedTo r.2 := fun r hr => by
      rw [namesMappedTo_eq]
      exact List.mem_map.mpr ⟨r, List.mem_filter.mpr ⟨hr, beq_self_eq_true _⟩, rfl⟩
    have hsame : fold (s.directoryName p.1) = fold (s.directoryName q.1) := by
      obtain ⟨_, _, _, _, _, _, hname⟩ := exists_last_of_mem hp
      rw [directoryName, directoryName, ← directoryName?_congr hfold, hname]
      rfl
    rw [← h p.1 p.2 (hlisted p hp), hsame, h q.1 q.2 (hlisted q hq)]
  · intro h n d hn
    refine (fold_directoryName_or_overruled hn).resolve_right ?_
    rintro ⟨p, q, hsub, ⟨rfl, hd⟩, hfold, hne⟩
    have hp : p ∈ s.attributes.toList := hsub.subset List.mem_cons_self
    have hq : q ∈ s.attributes.toList := hsub.subset (List.mem_cons_of_mem p List.mem_cons_self)
    exact hne ((h q hq p hp hfold).trans hd)

end ObjectSchema

namespace IndexedSchema

/-- The tables of a schema are those of its maps. -/
lemma kept_ofSchema (s : ObjectSchema) : (ofSchema s).Kept :=
  (kept_bare s).declareAll _

/-- **The two directions of a schema agree just when its names are declared alike.** Whatever is
declared, a mapped name is listed, up to case, for the directory name that it leads to; a name that
is listed for a directory name leads back to it unless it is overruled by another spelling; and all
of them do just when names that fold alike are declared with directory names that fold alike. -/
theorem directions_agree_iff (s : ObjectSchema) (ds : List Declaration) :
    let t := (ofSchema s).declareAll ds
    (∀ n, t.hasAttribute n = true → ∃ m ∈ t.namesMappedTo (t.directoryName n), fold m = fold n)
      ∧ (∀ n d, n ∈ t.namesMappedTo d →
        fold (t.directoryName n) = fold d ∨ t.schema.Overruled n d)
      ∧ ((∀ n d, n ∈ t.namesMappedTo d → fold (t.directoryName n) = fold d)
        ↔ t.schema.Coherent) := by
  intro t
  have hkept : t.Kept := (kept_ofSchema s).declareAll ds
  simp only [hkept.namesMappedTo_eq, hkept.directoryName_eq, hasAttribute,
    hkept.directoryName?_eq]
  refine ⟨fun n hn => ?_, fun n d => ObjectSchema.fold_directoryName_or_overruled,
    ObjectSchema.forall_fold_directoryName_iff⟩
  obtain ⟨d, hd⟩ := Option.isSome_iff_exists.mp hn
  rw [ObjectSchema.directoryName, hd, Option.getD_some]
  exact ObjectSchema.exists_mem_namesMappedTo hd

/-- Not every name that is listed for a directory name leads back to it: of a name in two spellings
the first one is listed for its own directory name, and leads to that of the last one. -/
theorem not_always_directions_agree :
    ¬ ∀ (s : ObjectSchema) (ds : List Declaration) (n d : String),
      n ∈ ((ofSchema s).declareAll ds).namesMappedTo d →
        fold (((ofSchema s).declareAll ds).directoryName n) = fold d := by
  intro h
  have hfold := h (.ofNames "ldap" "user")
    [.attributes [("mail", "mail"), ("MAIL", "userPrincipalName")]] "mail" "mail" (by decide)
  revert hfold
  decide

end IndexedSchema

end DirectoryLens
