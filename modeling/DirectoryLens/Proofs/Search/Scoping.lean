/-
What the definition of a schema asks of all objects, in the searches for them.

* `SchemaDefinition.scopingTexts`: the names and texts that it compares;
* `Filter.render_all_pair`: the text of two filters that hold together;
* `Compiler.scoping_kept_iff`: its filter stands before that of what is searched for, as it is
  written in the definition, just when the schema keeps every one of these names and texts.
-/
import DirectoryLens.Proofs.Expression.Kept
import DirectoryLens.Proofs.Schema.Definition
import DirectoryLens.Proofs.Search.Parts

namespace DirectoryLens

/-! ### Names and texts -/

namespace SchemaDefinition

variable {d : SchemaDefinition} {g : Expression}

/-- The names and texts that the filter for all objects compares. -/
def scopingTexts (d : SchemaDefinition) : List (String × String) :=
  d.objectCategory.toList.map (fun name => ("objectCategory", name))
    ++ d.objectClass.map fun name => ("objectClass", name)

/-- The filter for all objects compares the category, or the class with each of them, or both. -/
lemma scopingFilter_cases (h : d.scopingFilter = some g) :
    (d.objectCategory = none ∧ g = .classes d.objectClass) ∨
    ∃ category, d.objectCategory = some category ∧
      (d.objectClass = [] ∧ g = .eq "objectCategory" (.string category)
        ∨ g = .all [.eq "objectCategory" (.string category), .classes d.objectClass]) := by
  rw [scopingFilter, categoryFilter, classFilter] at h
  cases hcategory : d.objectCategory with
  | none =>
      rw [hcategory] at h
      cases hclass : d.objectClass with
      | nil =>
          rw [hclass] at h
          cases h
      | cons name names =>
          rw [hclass] at h
          obtain rfl := Option.some.inj h
          exact .inl ⟨rfl, rfl⟩
  | some category =>
      rw [hcategory] at h
      cases hclass : d.objectClass with
      | nil =>
          rw [hclass] at h
          obtain rfl := Option.some.inj h
          exact .inr ⟨category, rfl, .inl ⟨rfl, rfl⟩⟩
      | cons name names =>
          rw [hclass] at h
          obtain rfl := Option.some.inj h
          exact .inr ⟨category, rfl, .inr rfl⟩

/-- The leaves of a filter for classes compare the class with each of them. -/
lemma leaves_classes (names : List String) :
    (Expression.classes names).leaves = names.map (Leaf.ofText "objectClass" .equal) := by
  rw [Expression.classes, Expression.ofClasses, Expression.leaves]
  induction names with
  | nil => rfl
  | cons name names ih =>
      rw [List.map_cons, List.map_cons, Expression.leavesAll, ih]
      rfl

/-- The leaves of the filter for all objects compare the names with the texts. -/
lemma leaves_of_scopingFilter (h : d.scopingFilter = some g) :
    g.leaves = d.scopingTexts.map fun p => Leaf.ofText p.1 .equal p.2 := by
  have hclasses : (d.objectClass.map fun name => ("objectClass", name)).map
      (fun p : String × String => Leaf.ofText p.1 .equal p.2)
      = (Expression.classes d.objectClass).leaves := by
    rw [leaves_classes, List.map_map]
    rfl
  rw [scopingTexts, List.map_append, hclasses]
  rcases scopingFilter_cases h with
    ⟨hcategory, rfl⟩ | ⟨category, hcategory, ⟨hclass, rfl⟩ | rfl⟩
  · rw [hcategory]
    rfl
  · rw [hcategory, hclass]
    rfl
  · simp [hcategory, Expression.all, Expression.leaves, Expression.leavesAll, Expression.eq,
      Expression.compare, Leaf.ofText]

/-- The filter for all objects is built. -/
lemma built_of_scopingFilter (h : d.scopingFilter = some g) : g.Built := by
  have hclasses : (Expression.classes d.objectClass).Built := by
    refine .ofClasses fun e he => ?_
    obtain ⟨name, -, rfl⟩ := List.mem_map.mp he
    exact .compare ..
  rcases scopingFilter_cases h with ⟨-, rfl⟩ | ⟨category, -, ⟨-, rfl⟩ | rfl⟩
  · exact hclasses
  · exact .compare ..
  · refine .all fun e he => ?_
    rcases List.mem_pair.mp he with rfl | rfl
    · exact .compare ..
    · exact hclasses

end SchemaDefinition

/-! ### Texts of filters -/

/-- The text of two filters that hold together. -/
@[simp] lemma Filter.render_all_pair (f g : Filter) :
    (composite .all [f, g]).render = "(&" ++ f.render ++ g.render ++ ")" := by
  apply String.toList_injective
  simp [render, chars, charsAll, Symbol.text]

namespace Compiler

open Expression

variable {registry : Registry} {config : Config} {d : SchemaDefinition} {s : ObjectSchema}
  {e g : Expression} {selected : List String} {request : SearchRequest} {gtext : String}
  {log mid log₁ log₁' : CallLog}

/-- The filter for all objects, resolved and written as before, is one whose names and texts the
schema keeps. -/
lemma keeps_of_scoping (hg : d.scopingFilter = some g) {e' : Expression} {f f' : Filter}
    {log₂ log₂' : CallLog} (hresolve : (g.resolve ⟨registry, some s, false⟩).run log
      = ((e', .ok ()), mid))
    (hf : g.filter.run.run log₁ = (.ok f, log₁')) (hf' : e'.filter.run.run log₂ = (.ok f', log₂'))
    (hrender : f'.render = f.render) : ∀ p ∈ d.scopingTexts, s.Keeps registry p.1 p.2 := by
  have hbuilt := SchemaDefinition.built_of_scopingFilter hg
  have hbuilt' : e'.Built := by
    have hresolved := Built.resolve ⟨registry, some s, false⟩ log hbuilt
    rwa [hresolve] at hresolved
  -- both filters read back from the one text
  have hread := Filter.read_render (denotes_of_filter hbuilt.shaped hf).2
  rw [← hrender, Filter.read_render (denotes_of_filter hbuilt'.shaped hf').2] at hread
  obtain rfl := Option.some.inj hread
  intro p hp
  have hmem : Leaf.ofText p.1 .equal p.2 ∈ g.leaves := by
    rw [SchemaDefinition.leaves_of_scopingFilter hg]
    exact List.mem_map_of_mem hp
  exact keeps_of_filter_eq hresolve hf hf' hmem

/-- **What the definition asks of all objects stands as it is written**, before what is searched
for, just when the schema keeps its names and texts: none of them is mapped to another one, and a
converter that is declared for them stores the texts as they are. -/
theorem scoping_kept_iff (hs : d.toSchema = .ok s) (hg : d.scopingFilter = some g)
    (hgtext : g.text.run.run log₁ = (.ok gtext, log₁'))
    (halone : ((⟨registry, config, some s⟩ : Compiler).alone.compileSelecting e selected).run.run
      log = (.ok request, mid)) :
    (∃ whole, ((⟨registry, config, some s⟩ : Compiler).compileSelecting e selected).run.run log
        = (.ok whole, mid)
      ∧ whole.filter.render = "(&" ++ gtext ++ request.filter.render ++ ")")
    ↔ ∀ p ∈ d.scopingTexts, s.Keeps registry p.1 p.2 := by
  have hscoping : (⟨registry, config, some s⟩ : Compiler).schema.bind (·.filter) = some g :=
    (SchemaDefinition.of_toSchema hs).1.trans hg
  obtain ⟨f, hf, rfl⟩ := Writing.map_eq_ok hgtext
  constructor
  · rintro ⟨whole, hwhole, hrender⟩
    obtain ⟨request', mid', g', f', halone', hg', hf', rfl⟩ :=
      (compileSelecting_eq_ok_iff hscoping).mp hwhole
    cases halone.symm.trans halone'
    rw [Filter.render_all_pair, String.append_left_inj, String.append_left_inj,
      String.append_right_inj] at hrender
    exact keeps_of_scoping hg (resolved_eq_ok_iff.mp hg') hf (hf' []) hrender
  · intro hkeeps
    have hkept : ∀ l ∈ g.leaves, l.Kept ⟨registry, some s, false⟩ := by
      rw [SchemaDefinition.leaves_of_scopingFilter hg]
      exact List.forall_mem_map.mpr fun p hp => Leaf.kept_ofText (hkeeps p hp)
    obtain ⟨g', hresolve, hsame⟩ := resolve_of_kept hkept
    have hresolved : (resolved ⟨registry, some s, false⟩ g).run.run mid = (.ok g', mid) :=
      resolved_eq_ok_iff.mpr (hresolve mid)
    obtain ⟨r, hr⟩ := exists_filter_of_resolved hresolved
    have hrf := hr log₁
    rw [hsame, hf] at hrf
    cases hrf
    exact ⟨_, (compileSelecting_eq_ok_iff hscoping).mpr
      ⟨request, mid, g', f, halone, hresolved, hr, rfl⟩, Filter.render_all_pair _ _⟩

/-- What is asked of all users stands as it is written, since their schema declares neither the
category nor the class. -/
theorem scoping_kept_user :
    ∃ s whole, SchemaDefinition.user.toSchema = .ok s
      ∧ ((⟨.builtin, .default, some s⟩ : Compiler).compileSelecting
          (eq "username" (.string "jd")) []).run.run [] = (.ok whole, [])
      ∧ whole.filter.render
        = "(&" ++ "(&(objectCategory=person)(objectClass=user))" ++ "(sAMAccountName=jd)"
          ++ ")" := by
  obtain ⟨s, hs⟩ : ∃ s, SchemaDefinition.user.toSchema = .ok s := ⟨_, rfl⟩
  obtain ⟨g, hg⟩ : ∃ g, SchemaDefinition.user.scopingFilter = some g := ⟨_, rfl⟩
  have hgtext : g.text.run.run [] = (.ok "(&(objectCategory=person)(objectClass=user))", []) := by
    cases hg
    rfl
  obtain ⟨request, halone, htext⟩ : ∃ request, ((⟨.builtin, .default, some s⟩ :
      Compiler).alone.compileSelecting (eq "username" (.string "jd")) []).run.run []
        = (.ok request, [])
      ∧ request.filter.render = "(sAMAccountName=jd)" := by
    cases hs
    exact ⟨_, rfl, rfl⟩
  have hkeeps : ∀ p ∈ SchemaDefinition.user.scopingTexts, s.Keeps .builtin p.1 p.2 := by
    cases hs
    intro p hp
    rcases List.mem_pair.mp hp with rfl | rfl <;>
      exact ObjectSchema.keeps_of_undeclared rfl rfl
  obtain ⟨whole, hwhole, hrender⟩ := (scoping_kept_iff hs hg hgtext halone).mpr hkeeps
  rw [htext] at hrender
  exact ⟨s, whole, hs, hwhole, hrender⟩

/-- Users of a directory in which the class has another name. -/
def renamedClassUser : SchemaDefinition :=
  { SchemaDefinition.ofNames "ad" "user" with
    objectClass := ["user"]
    attributes := .ofList [("objectClass", "structuralObjectClass")] }

/-- What is asked of all objects may be written with another name than in the definition. -/
theorem not_every_scoping_kept :
    ¬ ∀ (d : SchemaDefinition) (s : ObjectSchema) (g : Expression), d.toSchema = .ok s →
      d.scopingFilter = some g →
      ∀ (registry : Registry) (config : Config) (e : Expression) (selected : List String)
        (log mid : CallLog) (request : SearchRequest) (gtext : String),
        g.text.run.run mid = (.ok gtext, mid) →
        ((⟨registry, config, some s⟩ : Compiler).alone.compileSelecting e selected).run.run log
          = (.ok request, mid) →
      ∃ whole, ((⟨registry, config, some s⟩ : Compiler).compileSelecting e selected).run.run log
          = (.ok whole, mid)
        ∧ whole.filter.render = "(&" ++ gtext ++ request.filter.render ++ ")" := by
  intro h
  obtain ⟨whole, hwhole, hrender⟩ := h renamedClassUser _ _ rfl rfl .builtin .default
    (eq "cn" (.string "x")) [] [] [] _ _ rfl rfl
  cases hwhole
  revert hrender
  decide

end Compiler

end DirectoryLens
