/-
Which attributes a search asks for, and in which order.

* `distinctNames_eq_self`: names that differ beyond their case are distinct names already;
* `pairwise_findIdx_distinctNames`: distinct names stand in the order in which they first come;
* `Compiler.requestName`, `Compiler.place`: the attribute of a selected name, and the place of the
  first selected name that leads to an attribute;
* `Compiler.attributes_of_isSome`, `attributes_of_not_isSome`: with a schema the attributes asked
  for are distinct names, without one they are the selected names as they are;
* `Compiler.request_attributes`: which attributes a request asks for, and when each is asked for
  once.
-/
import DirectoryLens.Proofs.Search.Attributes

namespace DirectoryLens

open Text

/-! ### Distinct names -/

/-- Names that differ beyond their case are distinct names already. -/
lemma distinctNames_eq_self : ∀ {names : List String}, (names.map fold).Nodup →
    distinctNames names = names
  | [], _ => rfl
  | n :: names, h => by
      rw [List.map_cons, List.nodup_cons] at h
      rw [distinctNames, distinctNames_eq_self h.2, List.filter_eq_self.mpr]
      intro m hm
      rw [decide_eq_true_eq]
      exact fun heq => h.1 (heq ▸ List.mem_map_of_mem hm)

/-- Distinct names stand in the order in which they first come, up to case. -/
lemma pairwise_findIdx_distinctNames : ∀ names : List String,
    (distinctNames names).Pairwise fun a b =>
      names.findIdx (fun n => fold n == fold a) < names.findIdx (fun n => fold n == fold b)
  | [] => .nil
  | n :: names => by
      -- behind the first name all places are one higher than without it
      have hbehind : ∀ {a}, fold a ≠ fold n →
          (n :: names).findIdx (fun m => fold m == fold a)
            = names.findIdx (fun m => fold m == fold a) + 1 := fun {a} ha => by
        rw [List.findIdx_cons, beq_eq_false_iff_ne.mpr (Ne.symm ha), cond_false]
      have hne : ∀ a ∈ (distinctNames names).filter (fun q => fold q ≠ fold n),
          fold a ≠ fold n := fun a ha => of_decide_eq_true (List.mem_filter.mp ha).2
      rw [distinctNames, List.pairwise_cons]
      refine ⟨fun b hb => ?_, ?_⟩
      · rw [hbehind (hne b hb), List.findIdx_cons, beq_self_eq_true, cond_true]
        exact Nat.succ_pos _
      · refine ((pairwise_findIdx_distinctNames names).filter _).imp_of_mem fun ha hb hab => ?_
        rw [hbehind (hne _ ha), hbehind (hne _ hb)]
        exact Nat.succ_lt_succ hab

/-! ### Requests -/

namespace Compiler

/-- The attribute that is asked for under a selected name. -/
def requestName (c : Compiler) (name : String) : String :=
  match c.schema with
  | some s => s.directoryName name
  | none => name

/-- The place of the first of the selected names that leads to an attribute, up to case. -/
def place (c : Compiler) (selected : List String) (d : String) : Nat :=
  selected.findIdx fun n => fold (c.requestName n) == fold d

variable {c : Compiler} {selected : List String}

/-- With a schema the attributes asked for are distinct names. -/
lemma attributes_of_isSome (h : c.schema.isSome) :
    c.attributes selected = distinctNames (selected.map c.requestName) := by
  obtain ⟨registry, config, _ | s⟩ := c
  · cases h
  · exact ObjectSchema.directoryNames_eq s selected

/-- Without a schema the attributes asked for are the selected names as they are. -/
lemma attributes_of_not_isSome (selected : List String) (h : ¬ c.schema.isSome) :
    c.attributes selected = selected ∧ c.requestName = id := by
  obtain ⟨registry, config, _ | s⟩ := c
  · exact ⟨rfl, rfl⟩
  · exact absurd rfl h

/-- The attributes asked for are attributes of selected names. -/
lemma exists_of_mem_attributes {d : String} (h : d ∈ c.attributes selected) :
    ∃ n ∈ selected, c.requestName n = d := by
  by_cases hschema : c.schema.isSome
  · rw [attributes_of_isSome hschema] at h
    exact List.mem_map.mp (mem_of_mem_distinctNames h)
  · obtain ⟨hsame, hname⟩ := attributes_of_not_isSome selected hschema
    rw [hsame] at h
    exact ⟨d, h, congrFun hname d⟩

/-- The attribute of each selected name is asked for, up to case. -/
lemma exists_mem_attributes {n : String} (h : n ∈ selected) :
    ∃ d ∈ c.attributes selected, fold d = fold (c.requestName n) := by
  by_cases hschema : c.schema.isSome
  · rw [attributes_of_isSome hschema]
    exact exists_mem_distinctNames (List.mem_map_of_mem h)
  · obtain ⟨hsame, hname⟩ := attributes_of_not_isSome selected hschema
    exact ⟨n, hsame.symm ▸ h, by rw [hname, id]⟩

/-- With a schema, or when the selected names differ beyond their case, the attributes asked for
stand in the order of the first names that lead to them. -/
lemma pairwise_place_attributes (h : c.schema.isSome ∨ (selected.map fold).Nodup) :
    (c.attributes selected).Pairwise fun a b => c.place selected a < c.place selected b := by
  have hdistinct : c.attributes selected = distinctNames (selected.map c.requestName) := by
    by_cases hschema : c.schema.isSome
    · exact attributes_of_isSome hschema
    · obtain ⟨hsame, hname⟩ := attributes_of_not_isSome selected hschema
      rw [hsame, hname, List.map_id, distinctNames_eq_self (h.resolve_left hschema)]
  rw [hdistinct]
  refine (pairwise_findIdx_distinctNames _).imp fun {a b} hab => ?_
  rwa [List.findIdx_map, List.findIdx_map] at hab

/-- Attributes in the order of the first names that lead to them differ beyond their case. -/
lemma nodup_of_pairwise_place {ds : List String}
    (h : ds.Pairwise fun a b => c.place selected a < c.place selected b) :
    (ds.map fold).Nodup := by
  refine List.pairwise_map.mpr (h.imp fun {a b} hab heq => ?_)
  rw [place, place, heq] at hab
  exact lt_irrefl _ hab

/-- **Which attributes a request asks for.** The attribute of each selected name is asked for, up to
case, and nothing but attributes of selected names. With a schema no two of them fold alike, and
they stand in the order of the first selected names that lead to them; without one this is so just
when no two of the selected names fold alike, for these are asked for as they are. -/
theorem request_attributes {query : Expression} {log log' : CallLog} {request : SearchRequest}
    (h : (c.compileSelecting query selected).run.run log = (.ok request, log')) :
    (∀ n ∈ selected, ∃ d ∈ request.attributes, fold d = fold (c.requestName n))
      ∧ (∀ d ∈ request.attributes, ∃ n ∈ selected, c.requestName n = d)
      ∧ ((request.attributes.map fold).Nodup
        ↔ c.schema.isSome ∨ (selected.map fold).Nodup)
      ∧ (request.attributes.Pairwise (fun a b => c.place selected a < c.place selected b)
        ↔ c.schema.isSome ∨ (selected.map fold).Nodup) := by
  rw [attributes_of_compileSelecting h]
  have hcondition : ((c.attributes selected).map fold).Nodup →
      c.schema.isSome ∨ (selected.map fold).Nodup := fun hnodup =>
    or_iff_not_imp_left.mpr fun hschema => by
      rwa [(attributes_of_not_isSome selected hschema).1] at hnodup
  refine ⟨fun n hn => exists_mem_attributes hn, fun d hd => exists_of_mem_attributes hd, ?_, ?_⟩
  · exact ⟨hcondition, fun hd => nodup_of_pairwise_place (pairwise_place_attributes hd)⟩
  · exact ⟨fun ho => hcondition (nodup_of_pairwise_place ho), pairwise_place_attributes⟩

/-- A request for a name in two spellings, with a flag between them, asks for two attributes, in the
order of the first spelling and the flag. -/
theorem request_attributes_flagCompiler :
    ∃ request, (flagCompiler.compileSelecting (.present "cn") ["CN", "Disabled", "cn"]).run.run []
        = (.ok request, [])
      ∧ request.attributes = ["CN", "userAccountControl"]
      ∧ (request.attributes.map fold).Nodup
      ∧ request.attributes.Pairwise fun a b =>
        flagCompiler.place ["CN", "Disabled", "cn"] a
          < flagCompiler.place ["CN", "Disabled", "cn"] b := by
  have hrequest :
      (flagCompiler.compileSelecting (.present "cn") ["CN", "Disabled", "cn"]).run.run []
      = (.ok ⟨.item "cn" .equal [[], []], "", .subtree, ["CN", "userAccountControl"], some 1000⟩,
        []) := rfl
  obtain ⟨-, -, hnodup, hordered⟩ := request_attributes hrequest
  exact ⟨_, hrequest, rfl, hnodup.mpr (.inl rfl), hordered.mpr (.inl rfl)⟩

/-- Not every request asks for each attribute once: without a schema a name in two spellings is
asked for twice. -/
theorem not_every_attribute_once :
    ¬ ∀ (c : Compiler) (query : Expression) (selected : List String) (log log' : CallLog)
        (request : SearchRequest),
        (c.compileSelecting query selected).run.run log = (.ok request, log') →
        (request.attributes.map fold).Nodup := by
  intro h
  have hrequest : (Compiler.compileSelecting ⟨.builtin, .default, none⟩ (.present "cn")
      ["cn", "CN"]).run.run []
      = (.ok ⟨.item "cn" .equal [[], []], "", .subtree, ["cn", "CN"], some 1000⟩, []) := rfl
  have hnodup := h _ _ _ _ _ _ hrequest
  revert hnodup
  decide

end Compiler

end DirectoryLens
