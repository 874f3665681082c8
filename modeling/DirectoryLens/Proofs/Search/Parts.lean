/-
Searches by their parts: what is searched for, and what the schema asks of all objects.

* `Compiler.alone`: the compiler without what the schema asks of all objects;
* `Compiler.requestOf`: the request for a filter;
* `alone_eq_ok_iff`: an expression is compiled alone when it is resolved and has a filter;
* `compileSelecting_eq_alone`: a schema that asks nothing leaves the request;
* `compileSelecting_eq_ok_iff`: one that asks something joins its filter to that of the request;
* `exists_alone_of_compileSelecting`: a request holds that of its expression alone.
-/
import DirectoryLens.Proofs.Expression.Strict
import DirectoryLens.Proofs.Search.Failure

namespace DirectoryLens

/-- Computations that run alike go on alike. -/
lemma Writing.run_bind_congr {α β : Type} {m m' : Writing α} {k : α → Writing β} {log : CallLog}
    (h : m.run.run log = m'.run.run log) : (m >>= k).run.run log = (m' >>= k).run.run log := by
  simp only [bind, ExceptT.bind, ExceptT.run, ExceptT.mk, StateT.bind, StateT.run] at h ⊢
  rw [h]

namespace Compiler

open Expression

variable {c : Compiler} {e : Expression} {selected : List String} {log mid : CallLog}
  {request : SearchRequest}

/-- The compiler without what the schema asks of all objects. -/
def alone (c : Compiler) : Compiler :=
  { c with schema := c.schema.map fun s => { s with filter := none } }

/-- The request for a filter. -/
def requestOf (c : Compiler) (selected : List String) (f : Filter) : SearchRequest :=
  { filter := f
    baseDn := (c.schema.bind (·.baseDn)).getD c.config.baseDn
    scope := (c.schema.bind (·.scope)).getD c.config.scope
    attributes := c.attributes selected
    pageSize := (c.schema.bind (·.pageSize)).or c.config.pageSize }

/-- A search is compiled into the request for the filter of all that is searched for. -/
lemma compileSelecting_eq (c : Compiler) (e : Expression) (selected : List String) :
    c.compileSelecting e selected = (do
      let whole ← c.withScoping e
      let f ← whole.filter
      return c.requestOf selected f) :=
  rfl

/-- A request is one for its filter. -/
lemma eq_requestOf_of_compileSelecting
    (h : (c.compileSelecting e selected).run.run log = (.ok request, mid)) :
    request = c.requestOf selected request.filter := by
  rw [compileSelecting_eq] at h
  obtain ⟨_, _, -, h⟩ := Writing.bind_eq_ok h
  obtain ⟨_, _, -, h⟩ := Writing.bind_eq_ok h
  cases h
  rfl

/-- The request for a filter does not depend on what the schema asks of all objects. -/
@[simp] lemma requestOf_alone (c : Compiler) (selected : List String) (f : Filter) :
    c.alone.requestOf selected f = c.requestOf selected f := by
  obtain ⟨registry, config, schema⟩ := c
  cases schema <;> rfl

/-- An expression is resolved when its resolution succeeds. -/
lemma resolved_eq_ok_iff {ctx : Context} {e' : Expression} :
    (resolved ctx e).run.run log = (.ok e', mid) ↔
      (e.resolve ctx).run log = ((e', .ok ()), mid) := by
  rw [run_resolved]
  cases (e.resolve ctx).run log with
  | mk p mid' =>
      obtain ⟨e'', result⟩ := p
      cases result with
      | error fault => exact ⟨nofun, nofun⟩
      | ok => exact ⟨fun h => by cases h; rfl, fun h => by cases h; rfl⟩

/-- What is resolved alike under two contexts is refused alike. -/
lemma run_resolved_congr {ctx ctx' : Context}
    (h : (e.resolve ctx).run log = (e.resolve ctx').run log) :
    (resolved ctx e).run.run log = (resolved ctx' e).run.run log := by
  rw [run_resolved, run_resolved, h]

/-- Resolution does not depend on what the schema asks of all objects. -/
lemma run_resolved_alone (c : Compiler) (e : Expression) (log : CallLog) :
    (resolved c.alone.context e).run.run log = (resolved c.context e).run.run log := by
  obtain ⟨registry, config, schema⟩ := c
  cases schema with
  | none => rfl
  | some s => exact run_resolved_congr (resolve_congr (fun _ _ _ => by rfl) log)

/-- A schema that asks nothing of all objects has nothing to join to an expression. -/
lemma withScoping_of_none (h : c.schema.bind (·.filter) = none) (e : Expression) :
    c.withScoping e = resolved c.context e := by
  rw [withScoping]
  simp only [h]
  exact bind_pure _

/-- Alone, a schema asks nothing of all objects. -/
@[simp] lemma filter_alone (c : Compiler) : c.alone.schema.bind (·.filter) = none := by
  obtain ⟨registry, config, schema⟩ := c
  cases schema <;> rfl

/-- An expression that has been resolved is written without calls. -/
lemma exists_filter_of_resolved {ctx : Context} {e' : Expression}
    (h : (resolved ctx e).run.run log = (.ok e', mid)) :
    ∃ r, ∀ log' : CallLog, e'.filter.run.run log' = (r, log') := by
  rcases resolved_cases ctx (rfl : (ask e).run log = _) with
    ⟨fault, log', hrun, -⟩ | ⟨e'', hrun, -, r, hr, -⟩
  · rw [h] at hrun
    cases hrun
  · rw [h] at hrun
    cases hrun
    exact ⟨r, hr⟩

/-- **An expression is compiled alone when it is resolved and has a filter.** -/
theorem alone_eq_ok_iff :
    (c.alone.compileSelecting e selected).run.run log = (.ok request, mid) ↔
      ∃ e' f, (resolved c.context e).run.run log = (.ok e', mid)
        ∧ (∀ log' : CallLog, e'.filter.run.run log' = (.ok f, log'))
        ∧ request = c.requestOf selected f := by
  rw [compileSelecting_eq, withScoping_of_none (filter_alone c)]
  constructor
  · intro h
    obtain ⟨e', mid', he, h⟩ := Writing.bind_eq_ok h
    obtain ⟨f, mid'', hf, h⟩ := Writing.bind_eq_ok h
    rw [run_resolved_alone] at he
    obtain ⟨r, hr⟩ := exists_filter_of_resolved he
    rw [hr] at hf
    cases hf
    cases h
    exact ⟨e', f, he, hr, requestOf_alone c selected f⟩
  · rintro ⟨e', f, he, hf, rfl⟩
    rw [← run_resolved_alone] at he
    rw [Writing.run_bind_of_ok he, Writing.run_bind_of_ok (hf mid), requestOf_alone]
    rfl

/-- A schema that asks nothing of all objects leaves the request as it is. -/
theorem compileSelecting_eq_alone (h : c.schema.bind (·.filter) = none) :
    (c.compileSelecting e selected).run.run log
      = (c.alone.compileSelecting e selected).run.run log := by
  rw [compileSelecting_eq, compileSelecting_eq, withScoping_of_none h,
    withScoping_of_none (filter_alone c)]
  simp only [requestOf_alone]
  exact Writing.run_bind_congr (run_resolved_alone c e log).symm

/-- Two expressions that have filters have both together. -/
lemma run_filter_all {e₁ e₂ : Expression} {f₁ f₂ : Filter}
    (h₁ : e₁.filter.run.run log = (.ok f₁, log)) (h₂ : e₂.filter.run.run log = (.ok f₂, log)) :
    (all [e₁, e₂]).filter.run.run log = (.ok (.composite .all [f₁, f₂]), log) := by
  rw [all, filter]
  · rw [filterAll, filterAll, filterAll, map_eq_pure_bind, bind_assoc, Writing.run_bind_of_ok h₁,
      bind_assoc, bind_assoc, Writing.run_bind_of_ok h₂]
    rfl
  · simp
  · simp
  · simp

/-- Of two expressions that have filters together each has one. -/
lemma exists_filters_of_filter_all {e₁ e₂ : Expression} {f : Filter} {log' : CallLog}
    (h : (all [e₁, e₂]).filter.run.run log = (.ok f, log')) :
    ∃ f₁ f₂, (∃ log log', e₁.filter.run.run log = (.ok f₁, log'))
      ∧ (∃ log log', e₂.filter.run.run log = (.ok f₂, log')) ∧ f = .composite .all [f₁, f₂] := by
  rcases filter_composite_eq_ok h with ⟨_, hkind, -⟩ | ⟨-, -, fs, hfs, rfl⟩
  · cases hkind
  · obtain ⟨f₁, _, h₁, hrest, rfl⟩ := List.forall₂_cons_left_iff.mp (forall₂_of_filterAll hfs)
    obtain ⟨f₂, _, h₂, hnil, rfl⟩ := List.forall₂_cons_left_iff.mp hrest
    obtain rfl := List.forall₂_nil_left_iff.mp hnil
    exact ⟨f₁, f₂, h₁, h₂, rfl⟩

/-- **What the schema asks of all objects is joined to what is searched for.** Its filter stands
before that of the expression, and is resolved after it. -/
theorem compileSelecting_eq_ok_iff {scoping : Expression} {whole : SearchRequest} {log' : CallLog}
    (h : c.schema.bind (·.filter) = some scoping) :
    (c.compileSelecting e selected).run.run log = (.ok whole, log') ↔
      ∃ request mid scoping' g,
        (c.alone.compileSelecting e selected).run.run log = (.ok request, mid)
        ∧ (resolved c.scopingContext scoping).run.run mid = (.ok scoping', log')
        ∧ (∀ log : CallLog, scoping'.filter.run.run log = (.ok g, log))
        ∧ whole = { request with filter := .composite .all [g, request.filter] } := by
  rw [compileSelecting_eq, withScoping]
  simp only [h]
  constructor
  · intro hwhole
    obtain ⟨_, mid', hall, hwhole⟩ := Writing.bind_eq_ok hwhole
    obtain ⟨e', mid, he, hall⟩ := Writing.bind_eq_ok hall
    obtain ⟨scoping', mid'', hscoping, hall⟩ := Writing.bind_eq_ok hall
    cases hall
    obtain ⟨_, _, hfilter, hwhole⟩ := Writing.bind_eq_ok hwhole
    -- neither of the two makes calls when it is written
    obtain ⟨r, hr⟩ := exists_filter_of_resolved he
    obtain ⟨r', hr'⟩ := exists_filter_of_resolved hscoping
    obtain ⟨g, f, ⟨_, _, hg⟩, ⟨_, _, hf⟩, rfl⟩ := exists_filters_of_filter_all hfilter
    rw [hr'] at hg
    rw [hr] at hf
    cases hg
    cases hf
    rw [run_filter_all (hr' _) (hr _)] at hfilter
    cases hfilter
    cases hwhole
    exact ⟨c.requestOf selected f, mid, scoping', g, alone_eq_ok_iff.mpr ⟨e', f, he, hr, rfl⟩,
      hscoping, hr', rfl⟩
  · rintro ⟨request, mid, scoping', g, halone, hscoping, hg, rfl⟩
    obtain ⟨e', f, he, hf, rfl⟩ := alone_eq_ok_iff.mp halone
    rw [bind_assoc, Writing.run_bind_of_ok he, bind_assoc, Writing.run_bind_of_ok hscoping,
      pure_bind, Writing.run_bind_of_ok (run_filter_all (hg log') (hf log'))]
    rfl

/-- **A request holds that of its expression alone.** Its filter is the one that the expression is
written with, joined to that of the schema when the schema asks something of all objects. -/
theorem exists_alone_of_compileSelecting {log' : CallLog}
    (h : (c.compileSelecting e selected).run.run log = (.ok request, log')) :
    ∃ f mid, (c.alone.compileSelecting e selected).run.run log
        = (.ok { request with filter := f }, mid)
      ∧ (c.schema.bind (·.filter) = none → request.filter = f)
      ∧ (c.schema.bind (·.filter) ≠ none → ∃ g, request.filter = .composite .all [g, f]) := by
  cases hscoping : c.schema.bind (·.filter) with
  | none =>
      rw [compileSelecting_eq_alone hscoping] at h
      exact ⟨request.filter, log', h, fun _ => rfl, fun hne => absurd rfl hne⟩
  | some scoping =>
      obtain ⟨part, mid, _, g, halone, -, -, rfl⟩ := (compileSelecting_eq_ok_iff hscoping).mp h
      exact ⟨part.filter, mid, halone, nofun, fun _ => ⟨g, rfl⟩⟩

end Compiler

end DirectoryLens
