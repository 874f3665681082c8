/-
Why expressions are not compiled.

* `Writing.Comes`: a computation that asks for nothing, and fails for some reason or does not;
* `Leaf.refusal?`, `Expression.fault?`: why a leaf on its own is not resolved, and why a part of an
  expression has no filter;
* `Expression.nodes`: the parts of an expression, each before its own;
* `resolve_literal`: a literal expression is refused for its first leaf that is, and else has a
  filter unless a part of it has none;
* `Compiler.firstRefusal?`, `Compiler.firstFault?`: the first of these, of what is searched for and
  what the schema asks of all objects;
* `compileSelecting_failure`: compilation succeeds when all parts do, and else fails for the first.
-/
import DirectoryLens.Proofs.Expression.Asking
import DirectoryLens.Proofs.Expression.Meaning
import DirectoryLens.Search.Compiler

namespace DirectoryLens

/-! ### Failures -/

section Failure

variable {α β ε : Type}

/-- Why a result is a failure. -/
def failure? : Except ε α → Option ε
  | .ok _ => none
  | .error fault => some fault

/-- What is no failure is a success. -/
@[simp] lemma failure?_eq_none_iff {r : Except ε α} : failure? r = none ↔ ∃ a, r = .ok a := by
  cases r with
  | error fault => exact ⟨fun h => (by cases h), fun ⟨_, h⟩ => (by cases h)⟩
  | ok a => exact ⟨fun _ => ⟨a, rfl⟩, fun _ => rfl⟩

/-- A failure has its reason. -/
@[simp] lemma failure?_eq_some_iff {r : Except ε α} {fault : ε} :
    failure? r = some fault ↔ r = .error fault := by
  cases r with
  | error fault' => exact ⟨fun h => (by cases h; rfl), fun h => (by cases h; rfl)⟩
  | ok a => exact ⟨fun h => (by cases h), fun h => (by cases h)⟩

end Failure

/-! ### Computations without calls -/

namespace Writing

variable {α β : Type} {m : Writing α} {k : α → Writing β} {fault fault' : Option QueryError}

/-- A step that fails is the last one. -/
lemma run_bind_of_error {log mid : CallLog} {fault : QueryError}
    (h : m.run.run log = (.error fault, mid)) : (m >>= k).run.run log = (.error fault, mid) := by
  simp only [bind, ExceptT.bind, ExceptT.run, ExceptT.mk, StateT.bind, StateT.run] at h ⊢
  rw [h]
  rfl

/-- A step that cannot fail goes on with what it gives. -/
lemma run_lift_bind (x : Calling α) (k : α → Writing β) (log : CallLog) :
    ((x : Writing α) >>= k).run.run log = (k (x.run log).1).run.run (x.run log).2 :=
  rfl

/-- A computation asks for nothing, and fails for a reason or, without one, succeeds. -/
def Comes (m : Writing α) (fault : Option QueryError) : Prop :=
  ∃ r, (∀ log : CallLog, m.run.run log = (r, log)) ∧ failure? r = fault

/-- A result fails as it does. -/
lemma Comes.liftExcept (r : Except QueryError α) :
    Comes (Operand.octets.liftExcept r) (failure? r) :=
  ⟨r, fun _ => rfl, rfl⟩

/-- What is given succeeds. -/
lemma Comes.pure (a : α) : Comes (Pure.pure a : Writing α) none :=
  ⟨.ok a, fun _ => rfl, rfl⟩

/-- Of two steps the first fails, or else the second. -/
lemma Comes.bind (hm : Comes m fault) (hk : ∀ a, Comes (k a) fault') :
    Comes (m >>= k) (fault.or fault') := by
  obtain ⟨r, hrun, rfl⟩ := hm
  cases r with
  | error fault => exact ⟨.error fault, fun log => run_bind_of_error (hrun log), rfl⟩
  | ok a =>
      obtain ⟨s, hs, rfl⟩ := hk a
      exact ⟨s, fun log => (run_bind_of_ok (hrun log)).trans (hs log), rfl⟩

/-- After a step that succeeds with something the next one fails as it does there. -/
lemma Comes.bind_of_ok {a : α} (hm : ∀ log : CallLog, m.run.run log = (.ok a, log))
    (hk : Comes (k a) fault) : Comes (m >>= k) fault := by
  obtain ⟨r, hrun, rfl⟩ := hk
  exact ⟨r, fun log => (run_bind_of_ok (hm log)).trans (hrun log), rfl⟩

/-- What is made of a result fails as the result does. -/
lemma Comes.bind_pure (hm : Comes m fault) (g : α → β) :
    Comes (m >>= fun a => Pure.pure (g a)) fault := by
  have hbind := hm.bind fun a => Comes.pure (g a)
  rwa [Option.or_none] at hbind

/-- A computation under a function fails as it does without it. -/
lemma Comes.map (hm : Comes m fault) (g : α → β) : Comes (g <$> m) fault := by
  rw [map_eq_pure_bind]
  exact hm.bind_pure g

/-- The reason shows in any one run. -/
lemma Comes.fault_eq (hm : Comes m fault) (log : CallLog) :
    fault = failure? (m.run.run log).1 := by
  obtain ⟨r, hrun, rfl⟩ := hm
  rw [hrun]

end Writing

open Writing (Comes)

/-! ### Leaves -/

namespace Leaf

/-- Why a leaf is not resolved. -/
def refusal? (ctx : Context) (l : Leaf) : Option QueryError :=
  failure? ((l.resolve ctx).run []).1.2

/-- The leaf as resolution makes it. -/
def resolved (ctx : Context) (l : Leaf) : Leaf :=
  ((l.resolve ctx).run []).1.1

/-- The leaf on its own is resolved, and then has a filter. -/
def Passes (ctx : Context) (l : Leaf) : Prop :=
  l.refusal? ctx = none ∧ ∃ f, ((l.resolved ctx).filter.run.run []).1 = .ok f

/-- The octets of a value that is given at once are had without calls. -/
lemma comes_octets {o : Operand} {v : Value} (h : o.source = .literal v) :
    ∃ fault, Comes o.octets fault := by
  rw [Operand.octets, h]
  cases o.converted with
  | some raw => exact ⟨none, .pure raw.octets⟩
  | none =>
      exact ⟨_, .bind_of_ok (fun log => rfl) ((Comes.liftExcept v.toRaw).bind_pure RawValue.octets)⟩

/-- The filter of a leaf whose value is given at once is had without calls. -/
lemma comes_filter {l : Leaf} {v : Value} (h : l.operand.source = .literal v) :
    Comes l.filter (failure? (l.filter.run.run []).1) := by
  have hcomes : ∃ fault, Comes l.filter fault := by
    obtain ⟨test, o⟩ := l
    obtain ⟨fault, hoctets⟩ := comes_octets h
    have hname := Comes.liftExcept o.checkedName
    rw [Leaf.filter]
    cases test with
    | compare comparator =>
        cases o.flag with
        | some flag => exact ⟨_, hname.bind fun name => .pure (flag.filter name)⟩
        | none =>
            exact ⟨_, hname.bind fun name =>
              hoctets.bind_pure fun bs => Filter.item name comparator [bs]⟩
    | rule id =>
        cases o.flag with
        | some flag => exact ⟨_, hname.bind fun name => .pure (flag.filter name)⟩
        | none =>
            exact ⟨_, hname.bind fun name =>
              hoctets.bind_pure fun bs => Filter.extensible name id bs⟩
    | wildcard placement =>
        cases placement with
        | present => exact ⟨_, hname.bind fun name => .pure (Filter.item name .equal [[], []])⟩
        | contains | startsWith | endsWith | like =>
            exact ⟨_, hname.bind fun name =>
              hoctets.bind_pure fun bs => Filter.item name .equal (Placement.pieces _ bs)⟩
  obtain ⟨fault, hfault⟩ := hcomes
  rwa [← hfault.fault_eq]

end Leaf

namespace Expression

/-! ### Parts -/

mutual

/-- The parts of an expression, each before its own, from left to right. -/
def nodes : Expression → List Expression
  | .leaf l => [.leaf l]
  | .composite kind symbol es => .composite kind symbol es :: nodesAll es

/-- The parts of several expressions, each before its own, from left to right. -/
def nodesAll : List Expression → List Expression
  | [] => []
  | e :: es => nodes e ++ nodesAll es

end

/-- One expression has its own leaves. -/
@[simp] lemma leavesAll_singleton (e : Expression) : leavesAll [e] = e.leaves := by
  simp [leavesAll]

/-- One expression has its own parts. -/
@[simp] lemma nodesAll_singleton (e : Expression) : nodesAll [e] = e.nodes := by
  simp [nodesAll]

/-- Why a part of an expression has no filter of its own: a leaf has none when it is resolved, or a
composite is empty. -/
def fault? (ctx : Context) : Expression → Option QueryError
  | .leaf l => failure? ((l.resolved ctx).filter.run.run []).1
  | .composite kind _ [] => some (.querySyntax (.noChildren kind))
  | .composite .. => none

mutual

/-- The leaves of an expression are those of its parts that are leaves. -/
@[simp] lemma leaf_mem_nodes {l : Leaf} : ∀ {e : Expression}, .leaf l ∈ e.nodes ↔ l ∈ e.leaves
  | .leaf l' => by simp [nodes, leaves]
  | .composite kind symbol es => by simp [nodes, leaves, leaf_mem_nodesAll]

/-- The leaves of several expressions are those of their parts that are leaves. -/
lemma leaf_mem_nodesAll {l : Leaf} : ∀ {es : List Expression},
    .leaf l ∈ nodesAll es ↔ l ∈ leavesAll es
  | [] => by simp [nodesAll, leavesAll]
  | e :: es => by simp [nodesAll, leavesAll, leaf_mem_nodes, leaf_mem_nodesAll]

end

/-! ### Literal expressions -/

variable {ctx : Context}

/-- What resolution makes of an expression has a filter, or has none for the first part of the
expression that has none. -/
def Written (ctx : Context) (e e' : Expression) : Prop :=
  Comes e'.filter (e.nodes.findSome? (fault? ctx))

/-- Several expressions have filters, or have none for the first of their parts that has none. -/
lemma comes_filterAll {es es' : List Expression} (h : List.Forall₂ (Written ctx) es es') :
    Comes (filterAll es') ((nodesAll es).findSome? (fault? ctx)) := by
  induction h with
  | nil => exact .pure []
  | @cons e e' es es' he _ ih =>
      rw [filterAll, nodesAll, List.findSome?_append]
      exact he.bind fun f => ih.bind_pure fun fs => f :: fs

/-- A composite has no filter when it is empty, or when a part of its children has none. -/
lemma written_composite {es es' : List Expression} (h : List.Forall₂ (Written ctx) es es')
    (kind : Connective) (symbol symbol' : Symbol) :
    Written ctx (.composite kind symbol es) (.composite kind symbol' es') := by
  rw [Written, nodes, List.findSome?_cons]
  have hall := comes_filterAll h
  cases h with
  | nil =>
      rw [filter]
      exact ⟨.error _, fun _ => rfl, rfl⟩
  | @cons e e' es es' he hes =>
      cases kind with
      | classes =>
          cases hes with
          | nil =>
              rw [filter, nodesAll, nodesAll, List.append_nil]
              exact he
          | cons =>
              rw [filter]
              · exact hall.map _
              · simp
              · simp
      | and | or | not =>
          rw [filter]
          · exact hall.map _
          · simp
          · simp
          · simp

/-- Two expressions have no filter together when the first has none, or else the second. -/
lemma comes_filter_all {e₁ e₂ : Expression} {fault₁ fault₂ : Option QueryError}
    (h₁ : Comes e₁.filter fault₁) (h₂ : Comes e₂.filter fault₂) :
    Comes (all [e₁, e₂]).filter (fault₁.or fault₂) := by
  have hsecond : Comes (filterAll [e₂]) fault₂ := by
    rw [filterAll, filterAll]
    exact h₂.bind_pure fun f => [f]
  rw [all, filter]
  · rw [filterAll]
    exact (h₁.bind fun f => hsecond.bind_pure fun fs => f :: fs).map _
  · simp
  · simp
  · simp

mutual

/-- **A literal expression is refused for its first leaf that is**, and when none is, it has a
filter unless a part of it has none. -/
theorem resolve_literal (ctx : Context) : ∀ {e : Expression}, e.Literal →
    ∃ e' result, (∀ log, (e.resolve ctx).run log = ((e', result), log))
      ∧ failure? result = e.leaves.findSome? (Leaf.refusal? ctx)
      ∧ (result = .ok () → Written ctx e e')
  | .leaf l, h => by
      obtain ⟨v, hv⟩ := literal_leaf_iff.mp h
      have hleaf : (l.resolve ctx).run [] = (l.settle ctx v, []) := by
        rw [Leaf.resolve, hv]
        rfl
      have hresolve : ∀ log, (resolve ctx (.leaf l)).run log
          = ((.leaf (l.resolved ctx), ((l.resolve ctx).run []).1.2), log) := by
        intro log
        rw [resolve_leaf_of_literal hv, Leaf.resolved, hleaf]
      have hsource : (l.resolved ctx).operand.source = .literal v := by
        rw [Leaf.resolved, hleaf, source_settle]
      refine ⟨_, _, hresolve, ?_, fun _ => ?_⟩
      · rw [leaves, List.findSome?_singleton, Leaf.refusal?]
      · rw [Written, filter, nodes, List.findSome?_singleton, fault?]
        exact Leaf.comes_filter hsource
  | .composite kind symbol es, h => by
      obtain ⟨es', result, hes, hrefusal, hok⟩ :=
        resolveAll_literal ctx (literal_composite_iff.mp h)
      rw [leaves]
      exact ⟨_, result, fun log => resolve_composite_iff.mpr ⟨es', hes log, rfl⟩, hrefusal,
        fun hresult => written_composite (hok hresult) kind symbol _⟩

/-- Literal expressions are refused for the first of their leaves that is, and when none is, each
has a filter unless a part of it has none. -/
theorem resolveAll_literal (ctx : Context) : ∀ {es : List Expression},
    (∀ e ∈ es, e.Literal) →
    ∃ es' result, (∀ log, (resolveAll ctx es).run log = ((es', result), log))
      ∧ failure? result = (leavesAll es).findSome? (Leaf.refusal? ctx)
      ∧ (result = .ok () → List.Forall₂ (Written ctx) es es')
  | [], _ => ⟨[], .ok (), fun log => resolveAll_nil ctx log, rfl, fun _ => .nil⟩
  | e :: es, h => by
      rw [List.forall_mem_cons] at h
      obtain ⟨e', result, he, hrefusal, hok⟩ := resolve_literal ctx h.1
      obtain ⟨es', results, hes, hrefusals, hoks⟩ := resolveAll_literal ctx h.2
      rw [leavesAll, List.findSome?_append, ← hrefusal, ← hrefusals]
      cases result with
      | error fault =>
          exact ⟨e' :: es, .error fault,
            fun log => resolveAll_cons_iff.mpr (.inl ⟨e', fault, he log, rfl, rfl⟩), rfl,
            fun h => by cases h⟩
      | ok =>
          exact ⟨e' :: es', results,
            fun log => resolveAll_cons_iff.mpr (.inr ⟨e', es', log, he log, hes log, rfl⟩), rfl,
            fun hresult => .cons (hok rfl) (hoks hresult)⟩

end

/-- Parts have filters of their own when the leaves among them do and no composite among them is
empty. -/
lemma forall_fault?_eq_none_iff {es : List Expression} :
    (∀ e ∈ es, fault? ctx e = none) ↔
      (∀ l, .leaf l ∈ es → ∃ f, ((l.resolved ctx).filter.run.run []).1 = .ok f)
        ∧ ∀ kind symbol, .composite kind symbol [] ∉ es := by
  constructor
  · intro h
    refine ⟨fun l hl => failure?_eq_none_iff.mp (h _ hl), fun kind symbol hmem => ?_⟩
    have hfault := h _ hmem
    rw [fault?] at hfault
    cases hfault
  · rintro ⟨hleaves, hempty⟩ e he
    cases e with
    | leaf l => exact failure?_eq_none_iff.mpr (hleaves l he)
    | composite kind symbol es =>
        cases es with
        | nil => exact absurd he (hempty kind symbol)
        | cons e es => rfl

/-- Every leaf of several expressions passes on its own, and none of their composites is empty, when
no leaf is refused and every part has a filter. -/
lemma forall_passes_iff (ctx : Context) (es : List Expression) :
    ((∀ l ∈ leavesAll es, l.Passes ctx)
        ∧ ∀ kind symbol, .composite kind symbol [] ∉ nodesAll es) ↔
      (leavesAll es).findSome? (Leaf.refusal? ctx) = none
        ∧ (nodesAll es).findSome? (fault? ctx) = none := by
  rw [List.findSome?_eq_none_iff, List.findSome?_eq_none_iff, forall_fault?_eq_none_iff]
  constructor
  · rintro ⟨hpasses, hfull⟩
    exact ⟨fun l hl => (hpasses l hl).1, fun l hl => (hpasses l (leaf_mem_nodesAll.mp hl)).2,
      hfull⟩
  · rintro ⟨hrefusal, hfilter, hfull⟩
    exact ⟨fun l hl => ⟨hrefusal l hl, hfilter l (leaf_mem_nodesAll.mpr hl)⟩, hfull⟩

end Expression

/-! ### Compilation -/

namespace Compiler

open Expression

/-- What every object is to satisfy by the schema, if there is anything. -/
def scopings (c : Compiler) : List Expression :=
  (c.schema.bind (·.filter)).toList

/-- A resolution that is refused fails, and another goes on with the expression. -/
lemma run_resolved (ctx : Context) (e : Expression) (log : CallLog) :
    (resolved ctx e).run.run log =
      match (e.resolve ctx).run log with
      | ((e', .ok ()), mid) => (.ok e', mid)
      | ((_, .error fault), mid) => (.error fault, mid) := by
  rw [resolved, Writing.run_lift_bind]
  cases (e.resolve ctx).run log with
  | mk p mid =>
      obtain ⟨e', result⟩ := p
      cases result <;> rfl

/-- An expression is refused for the first of its leaves that is, as they are when they are asked;
one that is not refused has been asked, and has a filter unless a part of it has none. -/
lemma resolved_cases (ctx : Context) {e query : Expression} {log mid : CallLog}
    (hask : (ask e).run log = (query, mid)) :
    (∃ fault log', (resolved ctx e).run.run log = (.error fault, log')
      ∧ query.leaves.findSome? (Leaf.refusal? ctx) = some fault) ∨
    ∃ e', (resolved ctx e).run.run log = (.ok e', mid)
      ∧ query.leaves.findSome? (Leaf.refusal? ctx) = none ∧ Written ctx query e' := by
  have hliteral := literal_ask e log
  rw [hask] at hliteral
  obtain ⟨e₁, result, hquery, hrefusal, hok⟩ := resolve_literal ctx hliteral
  cases hresolve : (e.resolve ctx).run log with
  | mk p log' =>
      obtain ⟨e', result'⟩ := p
      obtain ⟨e₂, hasked, hall⟩ := resolve_ask ctx e log log hresolve
      rw [hask] at hasked hall
      cases (hquery log).symm.trans hasked
      rw [run_resolved, hresolve, ← hrefusal]
      cases result with
      | error fault => exact .inl ⟨fault, log', rfl, rfl⟩
      | ok =>
          obtain ⟨rfl, rfl⟩ := hall rfl
          exact .inr ⟨_, rfl, rfl, hok rfl⟩

/-- Why the first leaf that is refused is, of an expression and then of others that the schema asks
of all objects. -/
def firstRefusal? (c : Compiler) (query : Expression) (scopings : List Expression) :
    Option QueryError :=
  (query.leaves.findSome? (Leaf.refusal? c.context)).or
    ((leavesAll scopings).findSome? (Leaf.refusal? c.scopingContext))

/-- Why the first part that has no filter has none, of expressions that the schema asks of all
objects and then of another. -/
def firstFault? (c : Compiler) (query : Expression) (scopings : List Expression) :
    Option QueryError :=
  ((nodesAll scopings).findSome? (fault? c.scopingContext)).or
    (query.nodes.findSome? (fault? c.context))

variable {c : Compiler} {e query : Expression} {scopings : List Expression}
  {log mid mid' : CallLog}

/-- The whole of what is searched for is refused for the first leaf that is; else it has a filter
unless a part of it has none. -/
lemma withScoping_cases (hask : (ask e).run log = (query, mid))
    (hscopings : (askAll c.scopings).run mid = (scopings, mid')) :
    (∃ fault log', (c.withScoping e).run.run log = (.error fault, log')
      ∧ c.firstRefusal? query scopings = some fault) ∨
    ∃ whole log', (c.withScoping e).run.run log = (.ok whole, log')
      ∧ c.firstRefusal? query scopings = none
      ∧ Comes whole.filter (c.firstFault? query scopings) := by
  rw [withScoping, firstRefusal?]
  rcases resolved_cases c.context hask with
    ⟨fault, log', he, hrefusal⟩ | ⟨e', he, hrefusal, hwritten⟩
  · rw [hrefusal]
    exact .inl ⟨fault, log', Writing.run_bind_of_error he, rfl⟩
  · rw [Writing.run_bind_of_ok he, hrefusal, Option.none_or, firstFault?]
    rw [Compiler.scopings] at hscopings
    cases hschema : c.schema.bind (·.filter) with
    | none =>
        rw [hschema] at hscopings
        cases hscopings
        exact .inr ⟨e', mid, rfl, rfl, hwritten⟩
    | some s =>
        rw [hschema, Option.toList_some, askAll_cons, askAll_nil] at hscopings
        cases hscopings
        rw [leavesAll_singleton, nodesAll_singleton]
        rcases resolved_cases c.scopingContext (e := s) rfl with
          ⟨fault, log', hs, hrefusal⟩ | ⟨s', hs, hrefusal, hwritten'⟩
        · exact .inl ⟨fault, log', Writing.run_bind_of_error hs, hrefusal⟩
        · exact .inr ⟨_, _, Writing.run_bind_of_ok hs, hrefusal,
            comes_filter_all hwritten' hwritten⟩

/-- Compilation fails for the first leaf that is refused, or else for the first part that has no
filter. -/
lemma failure?_compileSelecting (selected : List String) (hask : (ask e).run log = (query, mid))
    (hscopings : (askAll c.scopings).run mid = (scopings, mid')) :
    failure? ((c.compileSelecting e selected).run.run log).1
      = (c.firstRefusal? query scopings).or (c.firstFault? query scopings) := by
  rw [compileSelecting]
  rcases withScoping_cases hask hscopings with
    ⟨fault, log', hrun, hrefusal⟩ | ⟨whole, log', hrun, hrefusal, hcomes⟩
  · rw [Writing.run_bind_of_error hrun, hrefusal]
    rfl
  · rw [Writing.run_bind_of_ok hrun, hrefusal, Option.none_or]
    exact ((hcomes.bind_pure _).fault_eq log').symm

/-- **An expression is compiled when each of its parts is**: every leaf, of the expression as it is
when it has been asked, and of what the schema asks of all objects, passes on its own, and no
composite is empty. Else the failure is the first: that of a leaf of the expression that is not
resolved, then of such a leaf of what the schema asks, and then of a part that has no filter, of
what the schema asks and then of the expression. A literal expression is left as it is when it is
asked. -/
theorem compileSelecting_failure (c : Compiler) (e : Expression) (selected : List String)
    (log : CallLog) :
    let query := (ask e).run log
    let scoping := (askAll c.scopings).run query.2
    let result := ((c.compileSelecting e selected).run.run log).1
    ((∃ request, result = .ok request) ↔
        (∀ l ∈ query.1.leaves, l.Passes c.context)
          ∧ (∀ l ∈ leavesAll scoping.1, l.Passes c.scopingContext)
          ∧ ∀ kind symbol, .composite kind symbol [] ∉ nodesAll scoping.1 ++ query.1.nodes)
      ∧ failure? result
        = (c.firstRefusal? query.1 scoping.1).or (c.firstFault? query.1 scoping.1) := by
  intro query scoping result
  have hfailure : failure? result
      = (c.firstRefusal? query.1 scoping.1).or (c.firstFault? query.1 scoping.1) :=
    failure?_compileSelecting selected rfl rfl
  refine ⟨?_, hfailure⟩
  have hquery := forall_passes_iff c.context [query.1]
  have hscoping := forall_passes_iff c.scopingContext scoping.1
  have hfull : (∀ kind symbol, .composite kind symbol [] ∉ nodesAll scoping.1 ++ query.1.nodes) ↔
      (∀ kind symbol, .composite kind symbol [] ∉ nodesAll scoping.1)
        ∧ ∀ kind symbol, .composite kind symbol [] ∉ query.1.nodes := by
    simp only [List.mem_append, not_or, forall_and]
  simp only [leavesAll_singleton, nodesAll_singleton] at hquery
  rw [← failure?_eq_none_iff, hfailure, firstRefusal?, firstFault?, Option.or_eq_none_iff,
    Option.or_eq_none_iff, Option.or_eq_none_iff, hfull]
  constructor
  · rintro ⟨⟨hqueryLeaves, hscopingLeaves⟩, hscopingNodes, hqueryNodes⟩
    obtain ⟨hqueryPasses, hqueryFull⟩ := hquery.mpr ⟨hqueryLeaves, hqueryNodes⟩
    obtain ⟨hscopingPasses, hscopingFull⟩ := hscoping.mpr ⟨hscopingLeaves, hscopingNodes⟩
    exact ⟨hqueryPasses, hscopingPasses, hscopingFull, hqueryFull⟩
  · rintro ⟨hqueryPasses, hscopingPasses, hscopingFull, hqueryFull⟩
    obtain ⟨hqueryLeaves, hqueryNodes⟩ := hquery.mp ⟨hqueryPasses, hqueryFull⟩
    obtain ⟨hscopingLeaves, hscopingNodes⟩ := hscoping.mp ⟨hscopingPasses, hscopingFull⟩
    exact ⟨⟨hqueryLeaves, hscopingLeaves⟩, hscopingNodes, hqueryNodes⟩

end Compiler

end DirectoryLens
