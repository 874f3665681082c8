/-
Converters for bits that are added to a table in which their names may be taken.

* `Registry.flagEntries`, `Registry.append`: the entries of converters for bits, and a table with
  entries behind its own;
* `Registry.exists_registerFlags_eq`: converters for bits are added up to the first whose name is
  taken, and what was added stays;
* `Registry.get_append_iff`: what is found in a table with converters for bits behind its own;
* `Registry.get_withGroupFlags_iff`: what is found in the table that is built in with the converters
  for groups;
* `Registry.registerGroupFlags_added`: the table and the answer when the converters for groups are
  registered;
* `Registry.not_always_all_or_nothing`: some of them stay though another one is refused.
-/
import DirectoryLens.ActiveDirectory.Converters
import DirectoryLens.Proofs.Converter.Registry

namespace DirectoryLens.Registry

open Text

variable {r : Registry} {flags : List (String × UInt32)}

/-- The entries of converters for bits. -/
def flagEntries (flags : List (String × UInt32)) : List (String × String × Converter) :=
  flags.map fun f => (fold f.1, f.1, .flag f.1 f.2)

/-- A table with entries behind its own. -/
def append (r : Registry) (entries : List (String × String × Converter)) : Registry :=
  ⟨⟨r.entries.toList ++ entries⟩⟩

/-! ### Entries behind others -/

/-- A converter whose name is not taken goes behind the others. -/
lemma register_eq_append {name : String} (mask : UInt32) (hshape : NameShape name)
    (hfree : r.contains name = false) :
    r.register name (.flag name mask) = .ok (r.append (flagEntries [(name, mask)])) := by
  have hnew : fold name ∉ r.entries.keys := fun hmem =>
    Bool.false_ne_true (hfree.symm.trans (OrderedMap.contains_iff.mpr hmem))
  rw [register_eq_ok_iff]
  refine ⟨hshape, hfree, ?_⟩
  rw [append, flagEntries, List.map_singleton, ← OrderedMap.toList_insert hnew]

/-- A table with nothing behind its own entries is that table. -/
@[simp] lemma append_nil (r : Registry) : r.append [] = r := by
  rw [append, List.append_nil]

/-- Entries behind the others leave a table as it is just when there are none. -/
@[simp] lemma append_eq_self_iff (r : Registry) (entries : List (String × String × Converter)) :
    r.append entries = r ↔ entries = [] := by
  constructor
  · intro h
    simpa [append] using congrArg (fun r => r.entries.toList.length) h
  · rintro rfl
    exact append_nil r

/-- Entries go one behind the other. -/
@[simp] lemma append_append (r : Registry) (entries entries' : List (String × String × Converter)) :
    (r.append entries).append entries' = r.append (entries ++ entries') := by
  rw [append, append, append, List.append_assoc]

/-- The names that are taken in a table with converters for bits behind its own. -/
@[simp] lemma contains_append (r : Registry) (flags : List (String × UInt32)) (q : String) :
    (r.append (flagEntries flags)).contains q = true
      ↔ r.contains q = true ∨ ∃ f ∈ flags, fold f.1 = fold q := by
  simp [append, contains, OrderedMap.contains, flagEntries, List.any_append]

/-- The names of a table with converters for bits behind its own. -/
@[simp] lemma names_append (r : Registry) (flags : List (String × UInt32)) :
    (r.append (flagEntries flags)).names = r.names ++ flags.map (·.1) := by
  rw [names, append, List.map_append, flagEntries, List.map_map]
  rfl

/-- What is found under a name is the converter of an entry under its key. -/
lemma get_eq_ok_iff {q : String} {c : Converter} :
    r.get q = .ok c ↔ ∃ name, r.entries.get? (fold q) = some (name, c) := by
  rw [get]
  cases r.entries.get? (fold q) with
  | none => simp
  | some p => simp [Prod.ext_iff]

/-- What is found in a table with converters for bits behind its own, whose names differ and are not
taken there. -/
lemma get_append_iff (hfree : ∀ f ∈ flags, r.contains f.1 = false)
    (hdistinct : (flags.map fun f => fold f.1).Nodup) {q : String} {c : Converter} :
    (r.append (flagEntries flags)).get q = .ok c
      ↔ r.get q = .ok c ∨ ∃ f ∈ flags, fold f.1 = fold q ∧ c = .flag f.1 f.2 := by
  have hkeys : (OrderedMap.mk (flagEntries flags)).keys.Nodup := by
    rw [OrderedMap.keys, flagEntries, List.map_map]
    exact hdistinct
  have hbehind : ∀ name, (OrderedMap.mk (flagEntries flags)).get? (fold q) = some (name, c)
      ↔ ∃ f ∈ flags, fold f.1 = fold q ∧ f.1 = name ∧ .flag f.1 f.2 = c := fun name => by
    rw [OrderedMap.get?_eq_some_iff hkeys, flagEntries, List.mem_map]
    simp only [Prod.mk.injEq]
  have hfind : (r.append (flagEntries flags)).entries.get? (fold q)
      = (r.entries.get? (fold q)).or ((OrderedMap.mk (flagEntries flags)).get? (fold q)) := by
    rw [OrderedMap.get?, append, List.find?_append, Option.map_or]
    rfl
  rw [get_eq_ok_iff, get_eq_ok_iff, hfind]
  cases hfound : r.entries.get? (fold q) with
  | some p =>
      -- the name is taken, so no converter for a bit has it
      have htaken : r.contains q = true := by
        rw [contains, OrderedMap.contains_iff]
        by_contra hmem
        rw [OrderedMap.get?_eq_none hmem] at hfound
        cases hfound
      have hnone : ¬ ∃ f ∈ flags, fold f.1 = fold q ∧ c = .flag f.1 f.2 := by
        rintro ⟨f, hf, hfold, -⟩
        have hf' := hfree f hf
        rw [contains, hfold, ← contains, htaken] at hf'
        cases hf'
      rw [Option.some_or, or_iff_left hnone]
  | none =>
      simp only [Option.none_or, hbehind, reduceCtorEq, exists_false, false_or]
      constructor
      · rintro ⟨name, f, hf, hfold, -, hc⟩
        exact ⟨f, hf, hfold, hc.symm⟩
      · rintro ⟨f, hf, hfold, hc⟩
        exact ⟨f.1, f, hf, hfold, rfl, hc.symm⟩

/-! ### One after another -/

/-- **Converters for bits are added up to the first whose name is taken.** That name is the fault,
and what was added before it stays. -/
theorem exists_registerFlags_eq (hshape : ∀ f ∈ flags, NameShape f.1)
    (hdistinct : (flags.map fun f => fold f.1).Nodup) :
    ∃ added rest, flags = added ++ rest ∧ (∀ f ∈ added, r.contains f.1 = false)
      ∧ (∀ f ∈ rest.head?, r.contains f.1 = true)
      ∧ r.registerFlags flags = (r.append (flagEntries added),
        match rest with
        | [] => .ok ()
        | f :: _ => .error (.converterAlreadyRegistered f.1)) := by
  induction flags generalizing r with
  | nil =>
      refine ⟨[], [], rfl, nofun, nofun, ?_⟩
      simp [registerFlags, flagEntries]
  | cons f flags ih =>
      obtain ⟨name, mask⟩ := f
      rw [List.forall_mem_cons] at hshape
      rw [List.map_cons, List.nodup_cons] at hdistinct
      cases htaken : r.contains name with
      | true =>
          refine ⟨[], (name, mask) :: flags, rfl, nofun, ?_, ?_⟩
          · rintro f ⟨⟩
            exact htaken
          · rw [registerFlags, register, isName_iff.mpr hshape.1, htaken, flagEntries, List.map_nil,
              append_nil]
            rfl
      | false =>
          obtain ⟨added, rest, rfl, hfree, hhead, hregister⟩ :=
            ih (r := r.append (flagEntries [(name, mask)])) hshape.2 hdistinct.2
          -- a name is taken behind the first one just when it was taken before it
          have hcontains : ∀ f ∈ added ++ rest,
              (r.append (flagEntries [(name, mask)])).contains f.1 = r.contains f.1 := by
            intro f hf
            rw [Bool.eq_iff_iff, contains_append, or_iff_left]
            rintro ⟨g, hg, hfold⟩
            rw [List.mem_singleton.mp hg] at hfold
            exact hdistinct.1 (List.mem_map.mpr ⟨f, hf, hfold.symm⟩)
          refine ⟨(name, mask) :: added, rest, rfl, ?_, fun f hf => ?_, ?_⟩
          · refine List.forall_mem_cons.mpr ⟨htaken, fun f hf => ?_⟩
            rw [← hcontains f (List.mem_append_left rest hf)]
            exact hfree f hf
          · rw [← hcontains f (List.mem_append_right added (List.mem_of_head? hf))]
            exact hhead f hf
          · rw [registerFlags, register_eq_append mask hshape.1 htaken]
            show (r.append (flagEntries [(name, mask)])).registerFlags (added ++ rest) = _
            rw [hregister, append_append]
            rfl

/-- Converters for bits whose names are not taken are all added. -/
lemma registerFlags_eq_append (hshape : ∀ f ∈ flags, NameShape f.1)
    (hdistinct : (flags.map fun f => fold f.1).Nodup)
    (hfree : ∀ f ∈ flags, r.contains f.1 = false) :
    r.registerFlags flags = (r.append (flagEntries flags), .ok ()) := by
  obtain ⟨added, rest, hsplit, -, hhead, heq⟩ := exists_registerFlags_eq (r := r) hshape hdistinct
  cases rest with
  | nil => rw [heq, hsplit, List.append_nil]
  | cons f rest =>
      have htaken := hhead f rfl
      rw [hfree f (hsplit ▸ List.mem_append_right _ List.mem_cons_self)] at htaken
      cases htaken

/-! ### The converters for groups -/

/-- The converters for groups have names. -/
lemma nameShape_groupFlags : ∀ f ∈ groupFlags, NameShape f.1 := fun f hf => by
  have hall : (groupFlags.all fun f => isName f.1) = true := by decide
  exact isName_iff.mp (List.all_eq_true.mp hall f hf)

/-- Their names differ. -/
lemma nodup_groupFlags : (groupFlags.map fun f => fold f.1).Nodup := by
  decide

/-- None of their names is taken in the table that is built in. -/
lemma contains_builtin_groupFlags : ∀ f ∈ groupFlags, builtin.contains f.1 = false := by
  decide +kernel

/-- The table that is built in with the converters for groups has them behind the others. -/
lemma withGroupFlags_eq : withGroupFlags = .ok (builtin.append (flagEntries groupFlags)) := by
  rw [withGroupFlags, registerGroupFlags, registerFlags_eq_append nameShape_groupFlags
    nodup_groupFlags contains_builtin_groupFlags]

/-- **What is found in the table that is built in with the converters for groups** is one of these
or was built in without them. -/
theorem get_withGroupFlags_iff {q : String} {c : Converter} (h : withGroupFlags = .ok r) :
    r.get q = .ok c
      ↔ builtin.get q = .ok c ∨ ∃ f ∈ groupFlags, fold f.1 = fold q ∧ c = .flag f.1 f.2 := by
  obtain rfl := Except.ok.inj (withGroupFlags_eq.symm.trans h)
  exact get_append_iff contains_builtin_groupFlags nodup_groupFlags

/-- **The converters for groups are added up to the first whose name is taken.** All of them are
when no name is taken, in any case. Otherwise the first taken name is the fault, and those before it
are added all the same, so the table stays as it is just when the first name of all is taken. What
was there before stays in its place under its name, and nothing else is added. -/
theorem registerGroupFlags_added (r : Registry) :
    let after := r.registerGroupFlags.1
    let result := r.registerGroupFlags.2
    ∃ added rest, groupFlags = added ++ rest
      ∧ (∀ f ∈ added, r.contains f.1 = false) ∧ (∀ f ∈ rest.head?, r.contains f.1 = true)
      ∧ after.entries.toList = r.entries.toList ++ flagEntries added
      ∧ after.names = r.names ++ added.map (·.1)
      ∧ (∀ q c, after.get q = .ok c
        ↔ r.get q = .ok c ∨ ∃ f ∈ added, fold f.1 = fold q ∧ c = .flag f.1 f.2)
      ∧ (result = .ok () ↔ rest = [])
      ∧ (∀ fault, result = .error fault
        ↔ ∃ f ∈ rest.head?, fault = .converterAlreadyRegistered f.1)
      ∧ (after = r ↔ r.contains "group_security" = true) := by
  intro after result
  obtain ⟨added, rest, hsplit, hfree, hhead, heq⟩ :=
    exists_registerFlags_eq (r := r) nameShape_groupFlags nodup_groupFlags
  have hafter : after = r.append (flagEntries added) := congrArg Prod.fst heq
  have hresult : result = _ := congrArg Prod.snd heq
  have hadded : (added.map fun f => fold f.1).Nodup := by
    have hdistinct := nodup_groupFlags
    rw [hsplit, List.map_append] at hdistinct
    exact hdistinct.of_append_left
  refine ⟨added, rest, hsplit, hfree, hhead, by rw [hafter]; rfl, by rw [hafter, names_append],
    fun q c => by rw [hafter, get_append_iff hfree hadded], ?_, fun fault => ?_, ?_⟩
  · rw [hresult]
    cases rest with
    | nil => exact iff_of_true rfl rfl
    | cons f rest => exact iff_of_false nofun nofun
  · rw [hresult]
    cases rest with
    | nil => exact iff_of_false nofun (by rintro ⟨f, hf, -⟩; cases hf)
    | cons f rest => simp [eq_comm]
  · have hnone : after = r ↔ added = [] := by simp [hafter, flagEntries]
    rw [hnone]
    constructor
    · rintro rfl
      rw [List.nil_append] at hsplit
      exact hhead ("group_security", GroupType.securityFlag) (by rw [← hsplit]; rfl)
    · intro htaken
      cases added with
      | nil => rfl
      | cons f added =>
          -- the first converter would have been refused
          obtain rfl : ("group_security", GroupType.securityFlag) = f := (List.cons.inj hsplit).1
          have hnot := hfree _ List.mem_cons_self
          rw [htaken] at hnot
          cases hnot

/-- A table in which one name is taken, in another case, is left with another converter in it
though the answer is a fault. -/
theorem not_always_all_or_nothing :
    ∃ r, empty.register "GROUP_Global" .sid = .ok r ∧ r.names = ["GROUP_Global"]
      ∧ r.registerGroupFlags.2 = .error (.converterAlreadyRegistered "group_global")
      ∧ r.registerGroupFlags.1.names = ["GROUP_Global", "group_security"] :=
  ⟨_, rfl, rfl, rfl, rfl⟩

end DirectoryLens.Registry
