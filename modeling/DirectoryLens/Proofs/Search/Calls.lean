/-
The calls that compilation makes.

* `Leaf.reach`: how many leaves are resolved, up to the first that is refused;
* `log_resolve`: resolution asks for the deferred values of the leaves that it reaches, one after
  another, and for nothing else;
* `Leaf.Answered`: a leaf with some value given for a deferred one;
* `run_resolved_of_replays`: an expression that is answered as it was when it was resolved, as far
  as that went, is resolved in the same way, without calls;
* `Compiler.calls`: the calls of a compilation, in order;
* `Compiler.Answers`: what is searched for, and what the schema asks of all objects, with the
  answers that a compilation got;
* `compileSelecting_calls`: compilation makes its calls and no others, whatever it comes to, and
  what it comes to is what the answers come to.
-/
import DirectoryLens.Proofs.Expression.Leafwise
import DirectoryLens.Proofs.Search.Attributes
import DirectoryLens.Proofs.Search.Parts

namespace DirectoryLens

/-- What is made of a result makes no call. -/
lemma Writing.log_bind_pure {α β : Type} (m : Writing α) (g : α → β) (log : CallLog) :
    ((m >>= fun a => pure (g a)).run.run log).2 = (m.run.run log).2 := by
  cases h : m.run.run log with
  | mk result mid =>
      cases result with
      | error fault => rw [run_bind_of_error h]
      | ok a =>
          rw [run_bind_of_ok h]
          rfl

/-- What is made of two results that agree agrees, and makes no call. -/
lemma Writing.run_bind_pure_congr {α β : Type} {m m' : Writing α} {log log' : CallLog}
    (h : m.run.run log' = ((m'.run.run log).1, log')) (g : α → β) :
    (m >>= fun a => pure (g a)).run.run log'
      = (((m' >>= fun a => pure (g a)).run.run log).1, log') := by
  cases h' : m'.run.run log with
  | mk result mid =>
      rw [h'] at h
      cases result with
      | error fault => rw [run_bind_of_error h, run_bind_of_error h']
      | ok a =>
          rw [run_bind_of_ok h, run_bind_of_ok h']
          rfl

/-! ### Sources -/

namespace Source

/-- The labels of sources that stand behind others come after those of the others. -/
@[simp] lemma labels_append (ss ts : List Source) : labels (ss ++ ts) = labels ss ++ labels ts :=
  List.filterMap_append

/-- Sources that are asked are all called that are deferred, in order. -/
lemma log_mapM_ask (ss : List Source) : ∀ log : CallLog,
    ((ss.mapM ask).run log).2 = (labels ss).reverse ++ log := by
  induction ss with
  | nil =>
      intro log
      rfl
  | cons s ss ih =>
      intro log
      rw [run_mapM_ask_cons, run_ask, ih]
      cases s with
      | literal v => rfl
      | deferred d => simp [labels, label?]

end Source

/-! ### How far resolution goes -/

namespace Leaf

variable {ctx : Context} {ls ls' : List Leaf}

/-- How many of several leaves are resolved: those before the first that is refused, and that
one. -/
def reach (ctx : Context) (ls : List Leaf) : Nat :=
  ls.findIdx (fun l => (l.refusal? ctx).isSome) + 1

/-- A leaf that is refused stands before the end. -/
lemma findIdx_lt_length_iff : ls.findIdx (fun l => (l.refusal? ctx).isSome) < ls.length ↔
    ls.findSome? (refusal? ctx) ≠ none := by
  rw [List.findIdx_lt_length, Ne, List.findSome?_eq_none_iff]
  simp [Option.isSome_iff_ne_none]

/-- Leaves behind one that is refused are not reached. -/
lemma reach_append_of_ne_none (h : ls.findSome? (refusal? ctx) ≠ none) :
    reach ctx (ls ++ ls') = reach ctx ls ∧ reach ctx ls ≤ ls.length := by
  have hlt := findIdx_lt_length_iff.mpr h
  rw [reach, reach, List.findIdx_append, if_pos hlt]
  exact ⟨rfl, hlt⟩

/-- Leaves behind others that are not refused are reached as they are alone. -/
lemma reach_append_of_eq_none (h : ls.findSome? (refusal? ctx) = none) :
    reach ctx (ls ++ ls') = ls.length + reach ctx ls' := by
  rw [reach, reach, List.findIdx_append, if_neg (mt findIdx_lt_length_iff.mp (not_not.mpr h))]
  omega

/-- All leaves are reached when none is refused. -/
lemma length_lt_reach (h : ls.findSome? (refusal? ctx) = none) : ls.length < reach ctx ls := by
  have hreach : reach ctx (ls ++ []) = ls.length + reach ctx [] := reach_append_of_eq_none h
  rw [List.append_nil] at hreach
  rw [hreach, reach]
  omega

/-- Why leaves are refused shows as far as resolution goes. -/
lemma findSome?_take_reach (ls : List Leaf) :
    (ls.take (reach ctx ls)).findSome? (refusal? ctx) = ls.findSome? (refusal? ctx) := by
  induction ls with
  | nil => rfl
  | cons l ls ih =>
      rw [reach, List.findIdx_cons, List.findSome?_cons]
      cases hl : l.refusal? ctx with
      | some fault => simp [hl]
      | none =>
          rw [reach] at ih
          simpa [hl] using ih

end Leaf

/-! ### Answers -/

/-- A leaf with some value given for it if it has none: one that is given at once is kept. -/
inductive Leaf.Answered : Leaf → Leaf → Prop
  | literal {l : Leaf} {v : Value} : l.operand.source = .literal v → Answered l l
  | deferred {l : Leaf} {d : Deferred} (v : Value) :
      l.operand.source = .deferred d → Answered l (l.give v)

/-- A leaf that is answered has its value given at once. -/
lemma Leaf.Answered.exists_literal {l l' : Leaf} (h : l.Answered l') :
    ∃ v, l'.operand.source = .literal v := by
  cases h with
  | literal h => exact ⟨_, h⟩
  | deferred v => exact ⟨v, rfl⟩

namespace Expression

open Source (labels)
open Leaf (reach refusal? Answered)

/-- An answered expression is literal. -/
lemma Leafwise.literal {e query : Expression} (h : Leafwise Answered e query) :
    query.Literal := by
  intro s hs
  obtain ⟨l', hl', rfl⟩ := List.mem_map.mp hs
  obtain ⟨l, -, hl⟩ := exists_mem_of_forall₂ h.forall₂_leaves hl'
  exact hl.exists_literal

mutual

/-- An expression that has been asked is answered. -/
lemma leafwise_ask : ∀ (e : Expression) (log : CallLog), Leafwise Answered e ((ask e).run log).1
  | .leaf l, log => by
      rw [ask_leaf]
      obtain ⟨test, name, translated, source, converted, convertible, flag⟩ := l
      cases source with
      | literal v => exact .leaf (.literal rfl)
      | deferred d => exact .leaf (.deferred _ rfl)
  | .composite kind symbol es, log => by
      rw [ask_composite]
      exact .composite (forall₂_leafwise_askAll es log)

/-- Expressions that have been asked are answered. -/
lemma forall₂_leafwise_askAll : ∀ (es : List Expression) (log : CallLog),
    List.Forall₂ (Leafwise Answered) es ((askAll es).run log).1
  | [], log => by
      rw [askAll_nil]
      exact .nil
  | e :: es, log => by
      rw [askAll_cons]
      exact .cons (leafwise_ask e log) (forall₂_leafwise_askAll es _)

end

/-! ### The calls of resolution -/

/-- Asking an expression calls for its deferred values, in order. -/
lemma log_ask (e : Expression) (log : CallLog) :
    ((ask e).run log).2 = (labels e.sources).reverse ++ log :=
  (congrArg Prod.snd (sources_ask e log)).trans (Source.log_mapM_ask e.sources log)

/-- An expression is refused for the first of its leaves that is, as they are when they are
asked. -/
lemma failure?_resolve (ctx : Context) (e : Expression) (log : CallLog) :
    failure? ((e.resolve ctx).run log).1.2
      = ((ask e).run log).1.leaves.findSome? (refusal? ctx) := by
  obtain ⟨_, result, hquery, hrefusal, -⟩ := resolve_literal ctx (literal_ask e log)
  cases hresolve : (e.resolve ctx).run log with
  | mk p mid =>
      obtain ⟨e', result'⟩ := p
      obtain ⟨e'', hasked, -⟩ := resolve_ask ctx e log log hresolve
      cases (hquery log).symm.trans hasked
      exact hrefusal

/-- An expression has as many sources as it has leaves when it has been asked. -/
lemma length_sources (e : Expression) (log : CallLog) :
    e.sources.length = ((ask e).run log).1.leaves.length := by
  rw [(leafwise_ask e log).length_leaves, sources, List.length_map]

mutual

/-- **Resolution asks for the deferred values of the leaves that it reaches**, from left to right,
once for each leaf. -/
theorem log_resolve (ctx : Context) : ∀ (e : Expression) (log : CallLog),
    ((e.resolve ctx).run log).2
      = (labels (e.sources.take (reach ctx ((ask e).run log).1.leaves))).reverse ++ log
  | .leaf l, log => by
      rw [resolve_leaf, sources_leaf, ask_leaf, reach, List.take_succ_cons, List.take_nil]
      exact Source.log_mapM_ask [l.operand.source] log
  | .composite kind symbol es, log => by
      rw [resolve_composite, sources_composite, ask_composite, leaves]
      exact log_resolveAll ctx es log

/-- Resolution of several expressions asks for the deferred values of the leaves that it
reaches. -/
theorem log_resolveAll (ctx : Context) : ∀ (es : List Expression) (log : CallLog),
    ((resolveAll ctx es).run log).2
      = (labels ((sourcesAll es).take (reach ctx (leavesAll ((askAll es).run log).1)))).reverse
        ++ log
  | [], log => by
      simp [sourcesAll, leavesAll, labels]
  | e :: es, log => by
      have hfailure := failure?_resolve ctx e log
      have hlog := log_resolve ctx e log
      have hlength := length_sources e log
      rw [resolveAll_cons, sourcesAll_cons, askAll_cons, leavesAll]
      cases hresolve : (e.resolve ctx).run log with
      | mk p mid =>
          obtain ⟨e', result⟩ := p
          rw [hresolve] at hfailure hlog
          cases result with
          | error fault =>
              -- a leaf of the first expression is refused, and nothing is asked behind it
              have hrefused : ((ask e).run log).1.leaves.findSome? (refusal? ctx) ≠ none := by
                rw [← hfailure]
                exact Option.some_ne_none fault
              obtain ⟨hreach, hle⟩ := Leaf.reach_append_of_ne_none hrefused
              rw [hreach, List.take_append_of_le_length (hlength ▸ hle)]
              exact hlog
          | ok =>
              obtain ⟨_, -, hok⟩ := resolve_ask ctx e log log hresolve
              obtain ⟨-, rfl⟩ := hok rfl
              rw [Leaf.reach_append_of_eq_none hfailure.symm, ← hlength,
                List.take_length_add_append, Source.labels_append, List.reverse_append,
                List.append_assoc, ← log_ask]
              exact log_resolveAll ctx es _

end

/-! ### Resolution of answered expressions -/

/-- An expression with some value given for every deferred one: the answer that it had when the
expression was resolved, or any value where resolution did not go. -/
structure Replays (ctx : Context) (e : Expression) (log : CallLog) (query : Expression) : Prop where
  answered : Leafwise Answered e query
  take_reach : query.leaves.take (reach ctx ((ask e).run log).1.leaves)
    = ((ask e).run log).1.leaves.take (reach ctx ((ask e).run log).1.leaves)

variable {ctx : Context} {e query : Expression} {log : CallLog}

/-- An expression that has been asked has the answers of its resolution. -/
lemma replays_ask (ctx : Context) (e : Expression) (log : CallLog) :
    Replays ctx e log ((ask e).run log).1 :=
  ⟨leafwise_ask e log, rfl⟩

/-- With the answers of its resolution an expression is as it is when it has been asked, or is
refused for the same leaf. -/
lemma Replays.eq_or_refused (h : Replays ctx e log query) :
    query = ((ask e).run log).1 ∨
      ∃ fault, query.leaves.findSome? (refusal? ctx) = some fault
        ∧ ((ask e).run log).1.leaves.findSome? (refusal? ctx) = some fault := by
  obtain ⟨hanswered, htake⟩ := h
  have hask := leafwise_ask e log
  cases hrefusal : ((ask e).run log).1.leaves.findSome? (refusal? ctx) with
  | none =>
      have hle := (Leaf.length_lt_reach hrefusal).le
      rw [List.take_of_length_le hle, List.take_of_length_le
        (by rwa [hanswered.length_leaves, ← hask.length_leaves])] at htake
      exact .inl (hanswered.eq_of_leaves hask htake)
  | some fault =>
      right
      refine ⟨fault, ?_, rfl⟩
      rw [← List.take_append_drop (reach ctx ((ask e).run log).1.leaves) query.leaves, htake,
        List.findSome?_append, Leaf.findSome?_take_reach, hrefusal]
      rfl

end Expression

namespace Compiler

open Expression Source
open Leaf (reach refusal? Answered)

variable {c : Compiler} {ctx : Context} {e query : Expression} {selected : List String}
  {log : CallLog}

/-- What is resolved with success or refused makes the calls of its resolution. -/
lemma log_resolved (ctx : Context) (e : Expression) (log : CallLog) :
    ((resolved ctx e).run.run log).2 = ((e.resolve ctx).run log).2 := by
  rw [run_resolved]
  cases (e.resolve ctx).run log with
  | mk p mid =>
      obtain ⟨e', result⟩ := p
      cases result <;> rfl

/-- What is resolved is refused as its resolution is. -/
lemma failure?_resolved (ctx : Context) (e : Expression) (log : CallLog) :
    failure? ((resolved ctx e).run.run log).1 = failure? ((e.resolve ctx).run log).1.2 := by
  rw [run_resolved]
  cases (e.resolve ctx).run log with
  | mk p mid =>
      obtain ⟨e', result⟩ := p
      cases result <;> rfl

/-- **An expression with the answers of its resolution is resolved in the same way**, and without
calls. -/
theorem run_resolved_of_replays (h : Replays ctx e log query) (log' : CallLog) :
    (resolved ctx query).run.run log' = (((resolved ctx e).run.run log).1, log') := by
  rcases h.eq_or_refused with rfl | ⟨fault, hquery, hask⟩
  · cases hresolve : (e.resolve ctx).run log with
    | mk p mid =>
        obtain ⟨e', result⟩ := p
        obtain ⟨e'', hasked, hok⟩ := resolve_ask ctx e log log' hresolve
        rw [run_resolved, run_resolved, hresolve, hasked]
        cases result with
        | error fault => rfl
        | ok =>
            obtain ⟨rfl, -⟩ := hok rfl
            rfl
  · obtain ⟨_, result, hrun, hrefusal, -⟩ := resolve_literal ctx h.answered.literal
    rw [← failure?_resolve, ← failure?_resolved, failure?_eq_some_iff] at hask
    rw [hquery, failure?_eq_some_iff] at hrefusal
    rw [run_resolved, hrun, hrefusal, hask]

/-! ### The calls of a compilation -/

/-- The calls of a compilation, in order: those for the leaves of the expression up to the first
that is refused, and, when none is, those for the leaves of what the schema asks of all objects, up
to the first of them that is refused. -/
def calls (c : Compiler) (e : Expression) (log : CallLog) : List Nat :=
  let query := (ask e).run log
  let scopings := (askAll c.scopings).run query.2
  labels (e.sources.take (reach c.context query.1.leaves)) ++
    if (query.1.leaves.findSome? (refusal? c.context)).isSome then []
    else labels ((sourcesAll c.scopings).take (reach c.scopingContext (leavesAll scopings.1)))

/-- What is searched for makes its calls when it is resolved together with what the schema asks. -/
lemma log_withScoping (c : Compiler) (e : Expression) (log : CallLog) :
    ((c.withScoping e).run.run log).2 = (c.calls e log).reverse ++ log := by
  have hfailure := failure?_resolved c.context e log
  have hlog := log_resolved c.context e log
  rw [failure?_resolve] at hfailure
  rw [log_resolve] at hlog
  rw [withScoping, calls]
  cases hrun : (resolved c.context e).run.run log with
  | mk result mid =>
      rw [hrun] at hfailure hlog
      cases result with
      | error fault =>
          rw [Writing.run_bind_of_error hrun, ← hfailure]
          simp only [failure?, Option.isSome_some, if_true, List.append_nil]
          exact hlog
      | ok e' =>
          obtain ⟨_, -, hok⟩ := resolve_ask c.context e log log (resolved_eq_ok_iff.mp hrun)
          obtain ⟨-, hmid⟩ := hok rfl
          rw [Writing.run_bind_of_ok hrun, ← hfailure, List.reverse_append, List.append_assoc,
            ← hlog]
          cases hscoping : c.schema.bind (·.filter) with
          | none =>
              rw [scopings, hscoping]
              rfl
          | some s =>
              have hscopings : c.scopings = [s] := by
                rw [scopings, hscoping]
                rfl
              rw [hscopings, askAll_cons, askAll_nil, leavesAll_singleton, sourcesAll,
                leavesAll_singleton, ← sources, ← hmid]
              simp only
              rw [Writing.log_bind_pure, log_resolved, log_resolve, if_neg (by simp [failure?])]

/-- The compiler under a schema that asks something else, or nothing, of all objects. -/
def scopedBy (c : Compiler) (scoping : Option Expression) : Compiler :=
  { c with schema := c.schema.map fun s => { s with filter := scoping } }

/-- What is searched for, and what the schema asks of all objects, with some value given for every
deferred one: the answer that it had when the expression was compiled, or any value if it was not
asked for. -/
structure Answers (c : Compiler) (e : Expression) (log : CallLog) (query : Expression)
    (scoping : Option Expression) : Prop where
  replays_query : Replays c.context e log query
  answered_scoping : Option.Rel (Leafwise Answered) (c.schema.bind (·.filter)) scoping
  /-- What the schema asks has the answers that it had if the expression was not refused. -/
  replays_scoping : ((ask e).run log).1.leaves.findSome? (refusal? c.context) = none →
    Option.Rel (fun s s' => Replays c.scopingContext s ((ask e).run log).2 s')
      (c.schema.bind (·.filter)) scoping

/-- What has been asked has the answers of its compilation. -/
lemma answers_ask (c : Compiler) (e : Expression) (log : CallLog) :
    c.Answers e log ((ask e).run log).1
      ((c.schema.bind (·.filter)).map fun s => ((ask s).run ((ask e).run log).2).1) := by
  refine ⟨replays_ask c.context e log, ?_, fun _ => ?_⟩
  · cases c.schema.bind (·.filter) with
    | none => exact .none
    | some s => exact .some (leafwise_ask s _)
  · cases c.schema.bind (·.filter) with
    | none => exact .none
    | some s => exact .some (replays_ask c.scopingContext s _)

/-- Resolution does not depend on what the schema asks of all objects. -/
lemma run_resolved_scopedBy (c : Compiler) (scoping : Option Expression) (e : Expression)
    (log : CallLog) :
    (resolved (c.scopedBy scoping).context e).run.run log = (resolved c.context e).run.run log
      ∧ (resolved (c.scopedBy scoping).scopingContext e).run.run log
        = (resolved c.scopingContext e).run.run log := by
  obtain ⟨registry, config, schema⟩ := c
  cases schema with
  | none => exact ⟨rfl, rfl⟩
  | some s =>
      exact ⟨run_resolved_congr (resolve_congr (fun _ _ _ => by rfl) log),
        run_resolved_congr (resolve_congr (fun _ _ _ => by rfl) log)⟩

/-- The request for a filter does not depend on what the schema asks of all objects. -/
lemma requestOf_scopedBy (c : Compiler) (scoping : Option Expression) (selected : List String)
    (f : Filter) : (c.scopedBy scoping).requestOf selected f = c.requestOf selected f := by
  obtain ⟨registry, config, schema⟩ := c
  cases schema <;> rfl

/-- The schema asks something of all objects where it did, and what it is to ask. -/
lemma filter_scopedBy {R : Expression → Expression → Prop} {scoping : Option Expression}
    (h : Option.Rel R (c.schema.bind (·.filter)) scoping) :
    (c.scopedBy scoping).schema.bind (·.filter) = scoping := by
  obtain ⟨registry, config, schema⟩ := c
  cases schema with
  | none =>
      cases h
      rfl
  | some s => rfl

/-- With the answers of its compilation the whole of what is searched for is resolved in the same
way, and without calls. -/
lemma run_withScoping_of_answers {scoping : Option Expression}
    (h : c.Answers e log query scoping) (log' : CallLog) :
    ((c.scopedBy scoping).withScoping query).run.run log'
      = (((c.withScoping e).run.run log).1, log') := by
  obtain ⟨hquery, hanswered, hscoping⟩ := h
  have hreplayed := run_resolved_of_replays hquery log'
  rw [← (run_resolved_scopedBy c scoping query log').1] at hreplayed
  rw [withScoping, withScoping]
  cases hrun : (resolved c.context e).run.run log with
  | mk result mid =>
      have hfailure := failure?_resolved c.context e log
      rw [failure?_resolve, hrun] at hfailure
      rw [hrun] at hreplayed
      cases result with
      | error fault =>
          rw [Writing.run_bind_of_error hrun, Writing.run_bind_of_error hreplayed]
      | ok e' =>
          obtain ⟨_, -, hok⟩ := resolve_ask c.context e log log (resolved_eq_ok_iff.mp hrun)
          obtain ⟨-, rfl⟩ := hok rfl
          rw [Writing.run_bind_of_ok hrun, Writing.run_bind_of_ok hreplayed]
          have hboth := hscoping hfailure.symm
          have hfilter := filter_scopedBy hanswered
          simp only [hfilter]
          cases hs : c.schema.bind (·.filter) with
          | none =>
              rw [hs] at hboth
              cases hboth
              rfl
          | some s =>
              rw [hs] at hboth
              cases hboth with
              | @some _ s' hs' =>
                  have hreplayed' := run_resolved_of_replays hs' log'
                  rw [← (run_resolved_scopedBy c (some s') s' log').2] at hreplayed'
                  exact Writing.run_bind_pure_congr hreplayed' _

/-- What is searched for is refused together with what the schema asks, or is written without
calls. -/
lemma run_compileSelecting (c : Compiler) (e : Expression) (selected : List String)
    (log : CallLog) :
    (∃ fault mid, (c.withScoping e).run.run log = (.error fault, mid)
      ∧ (c.compileSelecting e selected).run.run log = (.error fault, mid)) ∨
    ∃ whole mid r, (c.withScoping e).run.run log = (.ok whole, mid)
      ∧ (∀ log : CallLog, whole.filter.run.run log = (r, log))
      ∧ (c.compileSelecting e selected).run.run log = (c.requestOf selected <$> r, mid) := by
  rw [compileSelecting_eq]
  have hask : (ask e).run log = (((ask e).run log).1, ((ask e).run log).2) := rfl
  rcases withScoping_cases (c := c) hask rfl with
    ⟨fault, mid, hrun, -⟩ | ⟨whole, mid, hrun, -, r, hr, -⟩
  · exact .inl ⟨fault, mid, hrun, Writing.run_bind_of_error hrun⟩
  · refine .inr ⟨whole, mid, r, hrun, hr, (Writing.run_bind_of_ok hrun).trans ?_⟩
    cases r with
    | error fault => exact Writing.run_bind_of_error (hr mid)
    | ok f => exact Writing.run_bind_of_ok (hr mid)

/-- Nothing is called for when the whole of what is searched for is written. -/
lemma log_compileSelecting (c : Compiler) (e : Expression) (selected : List String)
    (log : CallLog) :
    ((c.compileSelecting e selected).run.run log).2 = ((c.withScoping e).run.run log).2 := by
  rcases run_compileSelecting c e selected log with
    ⟨fault, mid, hrun, hcompile⟩ | ⟨whole, mid, r, hrun, -, hcompile⟩
  · rw [hrun, hcompile]
  · rw [hrun, hcompile]

/-- With the answers of its compilation an expression is compiled in the same way, and without
calls. -/
lemma run_compileSelecting_of_answers {scoping : Option Expression}
    (h : c.Answers e log query scoping) (selected : List String) (log' : CallLog) :
    ((c.scopedBy scoping).compileSelecting query selected).run.run log'
      = (((c.compileSelecting e selected).run.run log).1, log') := by
  have hwhole := run_withScoping_of_answers h log'
  rcases run_compileSelecting c e selected log with
    ⟨fault, mid, hrun, hcompile⟩ | ⟨whole, mid, r, hrun, hr, hcompile⟩
  · rw [hrun] at hwhole
    rw [hcompile, compileSelecting_eq]
    exact Writing.run_bind_of_error hwhole
  · rw [hrun] at hwhole
    rw [hcompile, compileSelecting_eq, Writing.run_bind_of_ok hwhole]
    simp only [requestOf_scopedBy]
    cases r with
    | error fault => exact Writing.run_bind_of_error (hr log')
    | ok f => exact Writing.run_bind_of_ok (hr log')

/-- Compilation with success asks for every deferred value of the expression and of what the schema
asks. -/
lemma calls_of_compileSelecting {request : SearchRequest}
    (h : ((c.compileSelecting e selected).run.run log).1 = .ok request) :
    c.calls e log = labels (e.sources ++ sourcesAll c.scopings) := by
  have hfailure : failure? ((c.compileSelecting e selected).run.run log).1
      = (c.firstRefusal? ((ask e).run log).1
          ((askAll c.scopings).run ((ask e).run log).2).1).or _ :=
    failure?_compileSelecting selected rfl rfl
  rw [h, eq_comm, failure?, Option.or_eq_none_iff, firstRefusal?, Option.or_eq_none_iff] at hfailure
  obtain ⟨⟨hquery, hscopings⟩, -⟩ := hfailure
  have hlength : (sourcesAll c.scopings).length
      = (leavesAll ((askAll c.scopings).run ((ask e).run log).2).1).length := by
    rw [Leafwise.length_leavesAll (forall₂_leafwise_askAll _ _), sourcesAll, List.length_map]
  rw [calls, hquery, Source.labels_append,
    List.take_of_length_le ((length_sources e log).trans_le (Leaf.length_lt_reach hquery).le),
    List.take_of_length_le (hlength.trans_le (Leaf.length_lt_reach hscopings).le)]
  rfl

/-- **Compilation makes its calls and no others.** It asks for the deferred values of the
expression, leaf by leaf up to the first that is refused, and then for those that the schema's
filter has, unless the expression was refused; all of this is done before anything is written. What
it comes to is what the same compiler comes to, without calls, with the answers in place of what is
deferred. The expression and the schema stay as they are, so that a further compilation makes calls
of its own; what tests for presence is not deferred. -/
theorem compileSelecting_calls (c : Compiler) (e : Expression) (selected : List String)
    (log : CallLog) :
    let compiled := (c.compileSelecting e selected).run.run log
    compiled.2 = (c.calls e log).reverse ++ log
      ∧ compiled.2 = ((c.withScoping e).run.run log).2
      ∧ (∀ query scoping, c.Answers e log query scoping → ∀ log',
          ((c.scopedBy scoping).compileSelecting query selected).run.run log'
            = (compiled.1, log'))
      ∧ (∀ request, compiled.1 = .ok request →
          c.calls e log = labels (e.sources ++ sourcesAll c.scopings))
      ∧ (∀ selected', ((c.compileSelecting e selected').run.run compiled.2).2
          = (c.calls e compiled.2).reverse ++ compiled.2)
      ∧ ∀ name source, labels (sources (.leaf (.wildcard name .present source))) = [] := by
  intro compiled
  have hlog : ∀ selected log, ((c.compileSelecting e selected).run.run log).2
      = (c.calls e log).reverse ++ log := by
    intro selected log
    rw [log_compileSelecting, log_withScoping]
  refine ⟨hlog selected log, log_compileSelecting c e selected log, ?_,
    fun request hok => calls_of_compileSelecting hok,
    fun selected' => hlog selected' compiled.2, fun name source => ?_⟩
  · intro query scoping hanswers log'
    exact run_compileSelecting_of_answers hanswers selected log'
  · rw [sources_leaf]
    rfl

/-- A compiler for the schema with one flag, whose objects are to be of a class that is asked
for. -/
def deferredCompiler : Compiler :=
  flagCompiler.scopedBy (some (eqDeferred "objectClass" ⟨0, fun _ => .string "user"⟩))

/-- A name, a flag that is no truth value when it is asked for again, and another name. -/
def deferredQuery : Expression :=
  all [eqDeferred "cn" ⟨1, fun _ => .string "jdoe"⟩,
    eqDeferred "Disabled" ⟨2, fun n => if n = 0 then .boolean true else .string "no"⟩,
    eqDeferred "sn" ⟨3, fun _ => .string "Doe"⟩]

/-- The first compilation asks for all values, and the second one up to the flag that is no truth
value. With the answers of the first one the query is compiled in the same way, and with those of
the second one it is refused, without calls and whatever is given for what was not reached. -/
theorem calls_deferredQuery :
    ((deferredCompiler.compileSelecting deferredQuery []).run.run []).2 = [0, 3, 2, 1]
      ∧ ((deferredCompiler.scopedBy (some (eq "objectClass" (.string "user")))).compileSelecting
          (all [eq "cn" (.string "jdoe"), eq "Disabled" (.boolean true), eq "sn" (.string "Doe")])
          []).run.run []
        = (((deferredCompiler.compileSelecting deferredQuery []).run.run []).1, [])
      ∧ ((deferredCompiler.compileSelecting deferredQuery []).run.run [0, 3, 2, 1]).2
        = [2, 1] ++ [0, 3, 2, 1]
      ∧ ((deferredCompiler.scopedBy (some (eq "objectClass" .null))).compileSelecting
          (all [eq "cn" (.string "jdoe"), eq "Disabled" (.string "no"), eq "sn" .null])
          []).run.run []
        = (((deferredCompiler.compileSelecting deferredQuery []).run.run [0, 3, 2, 1]).1, []) := by
  have hcalls : deferredCompiler.calls deferredQuery [] = [1, 2, 3, 0] := rfl
  have hagain : deferredCompiler.calls deferredQuery [0, 3, 2, 1] = [1, 2] := rfl
  have hanswers : deferredCompiler.Answers deferredQuery [0, 3, 2, 1]
      (all [eq "cn" (.string "jdoe"), eq "Disabled" (.string "no"), eq "sn" .null])
      (some (eq "objectClass" .null)) := by
    refine ⟨⟨.composite (.cons (.leaf (.deferred _ rfl)) (.cons (.leaf (.deferred _ rfl))
      (.cons (.leaf (.deferred _ rfl)) .nil))), rfl⟩, .some (.leaf (.deferred _ rfl)), fun h => ?_⟩
    cases h
  obtain ⟨hfirst, -, hsame, -⟩ := compileSelecting_calls deferredCompiler deferredQuery [] []
  obtain ⟨hlog, -, hresult, -⟩ :=
    compileSelecting_calls deferredCompiler deferredQuery [] [0, 3, 2, 1]
  rw [hcalls] at hfirst
  rw [hagain] at hlog
  exact ⟨hfirst, hsame _ _ (answers_ask deferredCompiler deferredQuery []) [], hlog,
    hresult _ _ hanswers []⟩

end Compiler

end DirectoryLens
