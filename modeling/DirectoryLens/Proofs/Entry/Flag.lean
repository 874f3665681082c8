/-
Flags of an entry, hydrated.

* `StoredFlag`: a name of a schema that leads to a flag of an entry;
* `StoredFlag.exists_source?_eq`: such a name is read from the attribute that it is mapped to;
* `exists_hydrate_flags`: names that lead to flags are hydrated as the bits that are stored.
-/
import Mathlib.Tactic
import DirectoryLens.Proofs.Converter.Flag
import DirectoryLens.Proofs.Entry.Bookkeeping
import DirectoryLens.Proofs.Entry.Source
import DirectoryLens.Proofs.Filter.Reader

namespace DirectoryLens

open Text

/-! ### Flags that are stored -/

/-- A name of a schema leads to a flag of an entry: it is declared with a name that attributes may
have and that is no bookkeeping, and with a converter for the bits of a mask; the entry has one
attribute of that name, in any case, with the decimal text of a number for its one value, and no
attribute elsewhere bears the name itself. -/
structure StoredFlag (registry : Registry) (s : ObjectSchema) (e : Entry) (name d : String)
    (mask : UInt32) (n : Int64) : Prop where
  declared : (name, d) ∈ s.attributes.toList
  valid : Filter.isAttributeName d.toList = true
  noBookkeeping : Entry.isBookkeeping d = false
  converter : ∃ converter own, s.converterFor name = some converter
    ∧ registry.get converter = .ok (.flag own mask)
  stored : ∃ x raw, e.toList.filter (fun p => fold p.1 == fold d) = [(x, [raw])]
    ∧ raw.text? = some (Number.decimal n.toInt)
  alone : ∀ p ∈ e.toList, fold p.1 = fold name → fold p.1 = fold d

namespace StoredFlag

variable {registry : Registry} {s : ObjectSchema} {e : Entry} {name d : String} {mask : UInt32}
  {n : Int64}

/-- An attribute that stands for the name of a flag is the one that the name is mapped to. -/
lemma fold_eq_of_matches (h : StoredFlag registry s e name d mask n) (hs : s.DistinctNames)
    {p : String × List RawValue} (hp : p ∈ e.toList) (hmatches : s.Matches p.1 name) :
    fold p.1 = fold d := by
  rcases hmatches with hown | ⟨m, hm, hfold⟩
  · exact h.alone p hp hown
  · exact hs.fold_eq_of_mem_namesMappedTo h.declared hm hfold

/-- The name of a flag is read from the attribute that it is mapped to. -/
lemma exists_source?_eq (h : StoredFlag registry s e name d mask n) (hs : s.DistinctNames) :
    ∃ x raw, s.source? e.normalized name = some (x, [raw])
      ∧ raw.text? = some (Number.decimal n.toInt) := by
  obtain ⟨x, raw, hfilter, htext⟩ := h.stored
  refine ⟨x, raw, ?_, htext⟩
  have hmem : (x, [raw]) ∈ e.toList.filter fun p => fold p.1 == fold d := by
    rw [hfilter]
    exact List.mem_singleton_self _
  obtain ⟨hx, hfold⟩ := List.mem_filter.mp hmem
  rw [beq_iff_eq] at hfold
  have hnormalized : (x, [raw]) ∈ e.normalized := by
    rw [Entry.normalized, List.mem_filter, Bool.not_eq_true', Bool.eq_false_iff]
    refine ⟨hx, fun hbookkeeping => ?_⟩
    have hd := Entry.isBookkeeping_of_fold_eq hfold hbookkeeping
    rw [h.noBookkeeping] at hd
    cases hd
  have hmatches : s.Matches x name :=
    ObjectSchema.matches_of_directoryName? (hs.directoryName? h.declared) hfold
  obtain ⟨p, hp⟩ := Option.ne_none_iff_exists'.mp
    (ObjectSchema.source?_ne_none.mpr ⟨_, hnormalized, hmatches⟩)
  -- the attribute that is found folds like the one there is, and there is no other
  have hpmem := List.mem_of_mem_filter (List.mem_of_find?_eq_some hp)
  have hpmatches : s.Matches p.1 name := by simpa using List.find?_some hp
  have hpfold := h.fold_eq_of_matches hs hpmem hpmatches
  have heq : p ∈ e.toList.filter fun p => fold p.1 == fold d :=
    List.mem_filter.mpr ⟨hpmem, beq_iff_eq.mpr hpfold⟩
  rw [hfilter, List.mem_singleton] at heq
  rw [hp, heq]

/-- The values of a flag are read as whether the bits of its mask are set in the number that is
stored. -/
lemma convert_eq (h : StoredFlag registry s e name d mask n) {raw : RawValue}
    (hraw : raw.text? = some (Number.decimal n.toInt)) :
    Hydrator.convert registry s name [raw]
      = .ok (.boolean (Converter.lowBits n &&& mask == mask)) := by
  obtain ⟨converter, own, hconverter, hget⟩ := h.converter
  rw [Hydrator.convert, hconverter]
  dsimp only
  rw [hget]
  refine bind_eq_ok.mpr ⟨_, rfl, bind_eq_ok.mpr ⟨[_], mapM_eq_ok.mpr (.cons ?_ .nil), rfl⟩⟩
  exact Hydrator.mapError_eq_ok.mpr (Converter.flag_fromDirectory own mask hraw)

end StoredFlag

/-- Names that lead to flags, and that are declared once beyond their case, are all asked for. -/
lemma mem_asked_of_declared {s : ObjectSchema} (hs : s.DistinctNames) {h : Hydrator}
    (hdeclared : ∀ name ∈ h.selection, ∃ d, (name, d) ∈ s.attributes.toList) {name : String}
    (hname : name ∈ h.selection) : name ∈ h.asked := by
  obtain ⟨q, hq, hfold⟩ := exists_mem_distinctNames hname
  obtain ⟨d, hd⟩ := hdeclared name hname
  obtain ⟨d', hd'⟩ := hdeclared q (mem_of_mem_distinctNames hq)
  have heq : q = name := congrArg Prod.fst (hs.eq_of_fold_eq hd' hd hfold)
  exact heq ▸ hq

/-- **Names that lead to flags are hydrated**, each as whether its bits are stored. -/
theorem exists_hydrate_flags {registry : Registry} {s : ObjectSchema} {e : Entry}
    {names : List String} (hs : s.DistinctNames)
    (hnames : ∀ name ∈ names, ∃ d mask n, StoredFlag registry s e name d mask n) :
    ∃ out, Hydrator.hydrate ⟨registry, some s, some names⟩ e = .ok out
      ∧ ∀ name ∈ names, ∀ d mask n, StoredFlag registry s e name d mask n →
        out.get? name = some (.boolean (Converter.lowBits n &&& mask == mask)) := by
  have hread : ∀ r ∈ Hydrator.asked ⟨registry, some s, some names⟩, ∀ p,
      s.source? e.normalized r = some p → ∃ v, Hydrator.Reads registry s r p.2 v := by
    intro r hr p hp
    obtain ⟨d, mask, n, hflag⟩ := hnames r (mem_of_mem_distinctNames hr)
    obtain ⟨x, raw, hsource, htext⟩ := hflag.exists_source?_eq hs
    rw [hsource, Option.some.injEq] at hp
    exact hp ▸ ⟨_, Hydrator.convert_eq_ok.mp (hflag.convert_eq htext)⟩
  obtain ⟨out, hout⟩ := Hydrator.exists_hydrate_eq_ok rfl hread
  refine ⟨out, hout, fun name hname d mask n hflag => ?_⟩
  have hasked : name ∈ Hydrator.asked ⟨registry, some s, some names⟩ := by
    refine mem_asked_of_declared hs (fun q hq => ?_) hname
    obtain ⟨d, mask, n, hq⟩ := hnames q hq
    exact ⟨d, hq.declared⟩
  obtain ⟨x, raw, hsource, htext⟩ := hflag.exists_source?_eq hs
  obtain ⟨v, hv, hreads⟩ :=
    (Hydrator.hydrates_of_hydrate rfl hout).matched name hasked _ hsource
  have hconvert := Hydrator.convert_eq_ok.mpr hreads
  rw [hflag.convert_eq htext, Except.ok.injEq] at hconvert
  rw [hv, ← hconvert]

end DirectoryLens
