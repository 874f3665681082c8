/-
Expressions whose deferred values have been asked for.

* `Source.ask`: a source with its value given at once from then on;
* `Asked`: the first of several sources have been asked, and the others have not;
* `Expression.leaves`, `Expression.sources`: the leaves of an expression and the sources of their
  values, from left to right;
* `Expression.ask`: an expression with every source asked;
* `sources_ask`: asking an expression asks its sources, one after another;
* `Expression.Literal`: all the values of an expression are given at once; `literal_leaf_iff` and
  `literal_composite_iff` say it by the parts;
* `resolve_ask`: an expression resolves just as it does when it has been asked first;
* `asked_resolve`: resolution asks sources from left to right.
-/
import DirectoryLens.Proofs.Expression.Built

namespace DirectoryLens

/-! ### Sources -/

namespace Source

/-- The source with its value given at once from then on. -/
def ask (s : Source) : Calling Source := do
  return .literal (← s.evaluate)

/-- The label of a source that is deferred. -/
def label? : Source → Option Nat
  | .literal _ => none
  | .deferred d => some d.label

/-- The labels of the sources that are deferred. -/
def labels (ss : List Source) : List Nat :=
  ss.filterMap label?

/-- A source gives the value that it evaluates to, in a call of its own if it is deferred. -/
lemma run_ask (s : Source) (log : CallLog) :
    s.ask.run log = (.literal (s.evaluate.run log).1, s.label?.toList ++ log) := by
  rw [ask, StateT.run_bind]
  cases s with
  | literal v =>
      rw [evaluate_literal]
      rfl
  | deferred d =>
      rw [evaluate_deferred]
      rfl

/-- Of several sources the first is asked, and then the others. -/
lemma run_mapM_ask_cons (s : Source) (ss : List Source) (log : CallLog) :
    ((s :: ss).mapM ask).run log =
      ((s.ask.run log).1 :: ((ss.mapM ask).run (s.ask.run log).2).1,
        ((ss.mapM ask).run (s.ask.run log).2).2) := by
  rw [List.mapM_cons]
  rfl

/-- Sources that stand behind others are asked after them. -/
lemma run_mapM_ask_append (ss ts : List Source) : ∀ log : CallLog,
    ((ss ++ ts).mapM ask).run log =
      (((ss.mapM ask).run log).1 ++ ((ts.mapM ask).run ((ss.mapM ask).run log).2).1,
        ((ts.mapM ask).run ((ss.mapM ask).run log).2).2) := by
  induction ss with
  | nil =>
      intro log
      rfl
  | cons s ss ih =>
      intro log
      rw [List.cons_append, run_mapM_ask_cons, run_mapM_ask_cons, ih]
      rfl

/-- What sources give when they are asked is given at once. -/
lemma isLiteral_of_mem_mapM_ask {ss : List Source} : ∀ {log : CallLog},
    ∀ s ∈ ((ss.mapM ask).run log).1, ∃ v, s = .literal v := by
  induction ss with
  | nil =>
      intro log s hs
      cases hs
  | cons s ss ih =>
      intro log t ht
      rw [run_mapM_ask_cons, run_ask] at ht
      rcases List.mem_cons.mp ht with rfl | ht
      · exact ⟨_, rfl⟩
      · exact ih t ht

end Source

/-- The first of several sources have been asked, from one log to another, and the others have
not. -/
inductive Asked : List Source → CallLog → List Source → CallLog → Prop
  | stop (ss : List Source) (log : CallLog) : Asked ss log ss log
  | step {s : Source} {ss ss' : List Source} {log log' : CallLog} :
      Asked ss (s.ask.run log).2 ss' log' → Asked (s :: ss) log ((s.ask.run log).1 :: ss') log'

namespace Asked

open Source

/-- All of several sources may have been asked. -/
lemma all (ss : List Source) : ∀ log : CallLog,
    Asked ss log ((ss.mapM ask).run log).1 ((ss.mapM ask).run log).2 := by
  induction ss with
  | nil => exact fun log => .stop [] log
  | cons s ss ih =>
      intro log
      rw [run_mapM_ask_cons]
      exact .step (ih _)

/-- Sources behind those that are asked may be left. -/
lemma append_right {ss ss' : List Source} {log log' : CallLog} (h : Asked ss log ss' log')
    (ts : List Source) : Asked (ss ++ ts) log (ss' ++ ts) log' := by
  induction h with
  | stop ss log => exact .stop (ss ++ ts) log
  | step _ ih => exact .step ih

/-- Sources behind those that are asked may be asked after them all. -/
lemma append_left (ss : List Source) {ts ts' : List Source} {log' : CallLog} :
    ∀ {log : CallLog}, Asked ts ((ss.mapM ask).run log).2 ts' log' →
      Asked (ss ++ ts) log (((ss.mapM ask).run log).1 ++ ts') log' := by
  induction ss with
  | nil => exact fun h => h
  | cons s ss ih =>
      intro log h
      rw [run_mapM_ask_cons] at h ⊢
      exact .step (ih h)

/-- A source that has been asked is not asked again. -/
lemma trans {ss ss' ss'' : List Source} {log log' log'' : CallLog} (h : Asked ss log ss' log')
    (h' : Asked ss' log' ss'' log'') : Asked ss log ss'' log'' := by
  induction h generalizing ss'' with
  | stop ss log => exact h'
  | @step s ss ss' log log' h ih =>
      -- what has been asked is given at once, so that the second run leaves it and makes no call
      rw [run_ask] at h'
      cases h' with
      | stop => exact run_ask s log ▸ .step h
      | step h' => exact run_ask s log ▸ .step (ih h')

/-- Sources of which the first have been asked are those as they are when all are asked, and then
those as they were; those that are deferred among the first have been called, in order, and each
of them once. -/
lemma exists_take {ss ss' : List Source} {log log' : CallLog} (h : Asked ss log ss' log') :
    ∃ k, ss' = ((ss.mapM ask).run log).1.take k ++ ss.drop k
      ∧ log' = (labels (ss.take k)).reverse ++ log := by
  induction h with
  | stop ss log => exact ⟨0, rfl, rfl⟩
  | @step s ss ss' log log' _ ih =>
      obtain ⟨k, rfl, rfl⟩ := ih
      refine ⟨k + 1, ?_, ?_⟩
      · rw [run_mapM_ask_cons]
        rfl
      · rw [run_ask]
        cases s with
        | literal v => rfl
        | deferred d => simp [labels, label?]

end Asked

/-- The leaf with a value given for its source. -/
def Leaf.give (l : Leaf) (v : Value) : Leaf :=
  { l with operand := { l.operand with source := .literal v } }

namespace Expression

/-! ### Leaves -/

mutual

/-- The leaves of an expression, from left to right. -/
def leaves : Expression → List Leaf
  | .leaf l => [l]
  | .composite _ _ es => leavesAll es

/-- The leaves of several expressions, from left to right. -/
def leavesAll : List Expression → List Leaf
  | [] => []
  | e :: es => leaves e ++ leavesAll es

end

/-- The sources of the values of an expression, from left to right. -/
def sources (e : Expression) : List Source :=
  e.leaves.map (·.operand.source)

/-- The sources of the values of several expressions, from left to right. -/
def sourcesAll (es : List Expression) : List Source :=
  (leavesAll es).map (·.operand.source)

/-- A leaf has one source. -/
@[simp] lemma sources_leaf (l : Leaf) : sources (.leaf l) = [l.operand.source] := by
  rw [sources, leaves]
  rfl

/-- A composite has the sources of its children. -/
@[simp] lemma sources_composite (kind : Connective) (symbol : Symbol) (es : List Expression) :
    sources (.composite kind symbol es) = sourcesAll es := by
  rw [sources, leaves, sourcesAll]

/-- The sources of several expressions are those of the first, and then those of the others. -/
@[simp] lemma sourcesAll_cons (e : Expression) (es : List Expression) :
    sourcesAll (e :: es) = sources e ++ sourcesAll es := by
  rw [sourcesAll, leavesAll, List.map_append, sources, sourcesAll]

/-! ### Asking -/

mutual

/-- The expression with every source asked, from left to right. -/
def ask : Expression → Calling Expression
  | .leaf l => do return .leaf (l.give (← l.operand.source.evaluate))
  | .composite kind symbol es => do return .composite kind symbol (← askAll es)

/-- The expressions with every source asked, from left to right. -/
def askAll : List Expression → Calling (List Expression)
  | [] => pure []
  | e :: es => do return (← ask e) :: (← askAll es)

end

/-- A leaf is given what its source gives. -/
lemma ask_leaf (l : Leaf) (log : CallLog) : (ask (.leaf l)).run log =
    (.leaf (l.give (l.operand.source.evaluate.run log).1),
      (l.operand.source.evaluate.run log).2) := by
  rw [ask]
  rfl

/-- A composite is asked child by child. -/
@[simp] lemma ask_composite (kind : Connective) (symbol : Symbol) (es : List Expression)
    (log : CallLog) :
    (ask (.composite kind symbol es)).run log =
      (.composite kind symbol ((askAll es).run log).1, ((askAll es).run log).2) := by
  rw [ask]
  rfl

/-- There is nothing to ask in no expressions. -/
@[simp] lemma askAll_nil (log : CallLog) : (askAll []).run log = ([], log) := by
  rw [askAll]
  rfl

/-- Of several expressions the first is asked, and then the others. -/
@[simp] lemma askAll_cons (e : Expression) (es : List Expression) (log : CallLog) :
    (askAll (e :: es)).run log =
      (((ask e).run log).1 :: ((askAll es).run ((ask e).run log).2).1,
        ((askAll es).run ((ask e).run log).2).2) := by
  rw [askAll]
  rfl

mutual

/-- Asking an expression asks its sources, one after another. -/
theorem sources_ask : ∀ (e : Expression) (log : CallLog),
    (sources ((ask e).run log).1, ((ask e).run log).2) = (e.sources.mapM Source.ask).run log
  | .leaf l, log => by
      rw [ask_leaf, sources_leaf, sources_leaf]
      rfl
  | .composite kind symbol es, log => by
      simp [← sourcesAll_ask es log]

/-- Asking expressions asks their sources, one after another. -/
theorem sourcesAll_ask : ∀ (es : List Expression) (log : CallLog),
    (sourcesAll ((askAll es).run log).1, ((askAll es).run log).2)
      = ((sourcesAll es).mapM Source.ask).run log
  | [], log => by
      rw [askAll_nil]
      rfl
  | e :: es, log => by
      rw [askAll_cons, sourcesAll_cons, sourcesAll_cons, Source.run_mapM_ask_append,
        ← sources_ask e log, ← sourcesAll_ask es]

end

/-- The sources of an expression that has been asked. -/
lemma sources_run_ask (e : Expression) (log : CallLog) :
    ((ask e).run log).1.sources = ((e.sources.mapM Source.ask).run log).1 :=
  congrArg Prod.fst (sources_ask e log)

/-! ### Literal expressions -/

/-- All the values of an expression are given at once. -/
def Literal (e : Expression) : Prop :=
  ∀ s ∈ e.sources, ∃ v, s = .literal v

/-- A leaf is literal when its value is given at once. -/
@[simp] lemma literal_leaf_iff {l : Leaf} :
    Literal (.leaf l) ↔ ∃ v, l.operand.source = .literal v := by
  simp [Literal]

/-- A composite is literal when its children are. -/
@[simp] lemma literal_composite_iff {kind : Connective} {symbol : Symbol} {es : List Expression} :
    Literal (.composite kind symbol es) ↔ ∀ e ∈ es, e.Literal := by
  rw [Literal, sources_composite]
  induction es with
  | nil => simp [sourcesAll, leavesAll]
  | cons e es ih => rw [sourcesAll_cons, List.forall_mem_append, List.forall_mem_cons, ih, Literal]

/-- An expression that has been asked is literal. -/
lemma literal_ask (e : Expression) (log : CallLog) : ((ask e).run log).1.Literal := by
  intro s hs
  rw [sources_run_ask] at hs
  exact Source.isLiteral_of_mem_mapM_ask s hs

mutual

/-- A literal expression is left as it is by asking, without calls. -/
lemma ask_of_literal : ∀ {e : Expression}, e.Literal → ∀ log : CallLog,
    (ask e).run log = (e, log)
  | .leaf ⟨test, o⟩, h, log => by
      obtain ⟨v, hv⟩ := literal_leaf_iff.mp h
      obtain ⟨name, translated, source, converted, convertible, flag⟩ := o
      cases hv
      rfl
  | .composite kind symbol es, h, log => by
      simp [askAll_of_literal (literal_composite_iff.mp h) log]

/-- Literal expressions are left as they are by asking, without calls. -/
lemma askAll_of_literal : ∀ {es : List Expression},
    (∀ e ∈ es, e.Literal) → ∀ log : CallLog,
    (askAll es).run log = (es, log)
  | [], _, log => askAll_nil log
  | e :: es, h, log => by
      rw [List.forall_mem_cons] at h
      simp [ask_of_literal h.1, askAll_of_literal h.2]

end

/-! ### Resolution by parts -/

/-- The mark of a composite whose children were resolved with some result. -/
def symbolAfter (result : Except QueryError Unit) (kind : Connective) (symbol : Symbol)
    (size : Nat) : Symbol :=
  if result matches .ok _ then Composite.settledSymbol kind symbol size else symbol

variable {ctx : Context} {l : Leaf} {kind : Connective} {symbol : Symbol} {e e' : Expression}
  {es es' : List Expression} {log mid : CallLog} {result : Except QueryError Unit}

/-- A composite comes to what its children come to. -/
lemma resolve_composite_iff :
    (resolve ctx (.composite kind symbol es)).run log = ((e', result), mid) ↔
      ∃ es', (resolveAll ctx es).run log = ((es', result), mid)
        ∧ e' = .composite kind (symbolAfter result kind symbol es'.length) es' := by
  rw [resolve_composite]
  cases (resolveAll ctx es).run log with
  | mk p mid' =>
      obtain ⟨es', result'⟩ := p
      constructor
      · intro h
        cases h
        exact ⟨es', rfl, rfl⟩
      · rintro ⟨_, hes, rfl⟩
        cases hes
        rfl

/-- Several expressions come to what the first of them comes to when it fails, and else to what
the others come to after it. -/
lemma resolveAll_cons_iff :
    (resolveAll ctx (e :: es)).run log = ((es', result), mid) ↔
      (∃ e' fault, (resolve ctx e).run log = ((e', .error fault), mid) ∧ es' = e' :: es
        ∧ result = .error fault) ∨
      ∃ e' rest mid', (resolve ctx e).run log = ((e', .ok ()), mid')
        ∧ (resolveAll ctx es).run mid' = ((rest, result), mid) ∧ es' = e' :: rest := by
  rw [resolveAll_cons]
  cases (resolve ctx e).run log with
  | mk p mid' =>
      obtain ⟨e', result'⟩ := p
      constructor
      · intro h
        cases result' with
        | error fault =>
            cases h
            exact .inl ⟨e', fault, rfl, rfl, rfl⟩
        | ok =>
            cases h
            exact .inr ⟨e', _, mid', rfl, rfl, rfl⟩
      · rintro (⟨_, _, he, rfl, rfl⟩ | ⟨_, rest, _, he, hes, rfl⟩)
        · cases he
          rfl
        · cases he
          simp only [hes]

/-- What resolution makes of an operand is its translation, its converted value and its flag; its
value is given at once from then on. -/
lemma exists_settle_operand_eq (ctx : Context) (o : Operand) (v : Value) :
    ∃ translated converted flag,
      (o.settle ctx v).1 = { o.reset v with translated, converted, flag } := by
  rw [Operand.settle]
  cases ctx.schema with
  | none => exact ⟨_, _, _, rfl⟩
  | some schema =>
      simp only [Operand.translate]
      split
      · exact ⟨_, _, _, rfl⟩
      · split
        · exact ⟨_, _, _, rfl⟩
        · rw [Operand.convert]
          split
          · exact ⟨_, _, _, rfl⟩
          · simp only
            split <;> exact ⟨_, _, _, rfl⟩

/-- What resolution makes of a leaf lies in its operand. -/
lemma settle_leaf_fst (ctx : Context) (l : Leaf) (v : Value) :
    (l.settle ctx v).1 = { l with operand := (l.operand.settle ctx v).1 } := by
  rw [Leaf.settle]
  split
  · rename_i h
    rw [h]
  · rename_i h
    rw [h]

/-- The value of a leaf that is resolved is given at once from then on. -/
@[simp] lemma source_settle (ctx : Context) (l : Leaf) (v : Value) :
    (l.settle ctx v).1.operand.source = .literal v := by
  obtain ⟨translated, converted, flag, h⟩ := exists_settle_operand_eq ctx l.operand v
  rw [settle_leaf_fst, h]
  rfl

/-! ### Resolution and asking -/

mutual

/-- **An expression resolves as it does when it has been asked first**: with the same success or
failure, then without calls, and into the same expression when it succeeds, all having been
asked. -/
theorem resolve_ask (ctx : Context) : ∀ (e : Expression) (log log' : CallLog) {e' : Expression}
    {result : Except QueryError Unit} {mid : CallLog},
    (e.resolve ctx).run log = ((e', result), mid) →
    ∃ e'', (((ask e).run log).1.resolve ctx).run log' = ((e'', result), log')
      ∧ (result = .ok () → e'' = e' ∧ mid = ((ask e).run log).2)
  | .leaf l, log, log', e', result, mid, h => by
      rw [resolve_leaf] at h
      rw [ask_leaf, resolve_leaf]
      cases h
      exact ⟨_, rfl, fun _ => ⟨rfl, rfl⟩⟩
  | .composite kind symbol es, log, log', e', result, mid, h => by
      obtain ⟨es', hes, rfl⟩ := resolve_composite_iff.mp h
      obtain ⟨es'', hes'', hok⟩ := resolveAll_ask ctx es log log' hes
      rw [ask_composite]
      refine ⟨_, resolve_composite_iff.mpr ⟨es'', hes'', rfl⟩, fun hresult => ?_⟩
      obtain ⟨rfl, hmid⟩ := hok hresult
      exact ⟨rfl, hmid⟩

/-- Expressions resolve as they do when they have been asked first. -/
theorem resolveAll_ask (ctx : Context) : ∀ (es : List Expression) (log log' : CallLog)
    {es' : List Expression} {result : Except QueryError Unit} {mid : CallLog},
    (resolveAll ctx es).run log = ((es', result), mid) →
    ∃ es'', (resolveAll ctx ((askAll es).run log).1).run log' = ((es'', result), log')
      ∧ (result = .ok () → es'' = es' ∧ mid = ((askAll es).run log).2)
  | [], log, log', es', result, mid, h => by
      rw [resolveAll_nil] at h
      cases h
      rw [askAll_nil, resolveAll_nil]
      exact ⟨[], rfl, fun _ => ⟨rfl, rfl⟩⟩
  | e :: es, log, log', es', result, mid, h => by
      rw [askAll_cons]
      rcases resolveAll_cons_iff.mp h with
        ⟨e', fault, he, rfl, rfl⟩ | ⟨e', rest, mid', he, hes, rfl⟩
      · obtain ⟨e'', he'', -⟩ := resolve_ask ctx e log log' he
        exact ⟨_, resolveAll_cons_iff.mpr (.inl ⟨e'', fault, he'', rfl, rfl⟩), fun h => by cases h⟩
      · obtain ⟨e'', he'', hok⟩ := resolve_ask ctx e log log' he
        obtain ⟨rfl, rfl⟩ := hok rfl
        obtain ⟨rest', hes', hok⟩ := resolveAll_ask ctx es _ log' hes
        refine ⟨_, resolveAll_cons_iff.mpr (.inr ⟨e'', rest', log', he'', hes', rfl⟩),
          fun hresult => ?_⟩
        obtain ⟨rfl, hmid⟩ := hok hresult
        exact ⟨rfl, hmid⟩

end

mutual

/-- **Resolution asks sources from left to right**, and all of them when it succeeds. -/
theorem asked_resolve (ctx : Context) : ∀ (e : Expression) (log : CallLog) {e' : Expression}
    {result : Except QueryError Unit} {mid : CallLog},
    (e.resolve ctx).run log = ((e', result), mid) →
    Asked e.sources log e'.sources mid
      ∧ (result = .ok () → (e'.sources, mid) = (e.sources.mapM Source.ask).run log)
  | .leaf l, log, e', result, mid, h => by
      rw [resolve_leaf] at h
      cases h
      have hsources : sources (.leaf (l.settle ctx (l.operand.source.evaluate.run log).1).1)
          = (([l.operand.source].mapM Source.ask).run log).1 := by
        rw [sources_leaf, source_settle]
        rfl
      rw [sources_leaf, hsources]
      exact ⟨.all [l.operand.source] log, fun _ => rfl⟩
  | .composite kind symbol es, log, e', result, mid, h => by
      obtain ⟨es', hes, rfl⟩ := resolve_composite_iff.mp h
      rw [sources_composite, sources_composite]
      exact askedAll_resolve ctx es log hes

/-- Resolution of several expressions asks their sources from left to right. -/
theorem askedAll_resolve (ctx : Context) : ∀ (es : List Expression) (log : CallLog)
    {es' : List Expression} {result : Except QueryError Unit} {mid : CallLog},
    (resolveAll ctx es).run log = ((es', result), mid) →
    Asked (sourcesAll es) log (sourcesAll es') mid
      ∧ (result = .ok () → (sourcesAll es', mid) = ((sourcesAll es).mapM Source.ask).run log)
  | [], log, es', result, mid, h => by
      rw [resolveAll_nil] at h
      cases h
      exact ⟨.stop _ _, fun _ => rfl⟩
  | e :: es, log, es', result, mid, h => by
      rcases resolveAll_cons_iff.mp h with
        ⟨e', fault, he, rfl, rfl⟩ | ⟨e', rest, mid', he, hes, rfl⟩
      · rw [sourcesAll_cons, sourcesAll_cons]
        exact ⟨(asked_resolve ctx e log he).1.append_right _, fun h => by cases h⟩
      · have hall := (asked_resolve ctx e log he).2 rfl
        obtain ⟨hrest, hok⟩ := askedAll_resolve ctx es mid' hes
        have happend : Asked (e.sources ++ sourcesAll es) log
            (((e.sources.mapM Source.ask).run log).1 ++ sourcesAll rest) mid :=
          .append_left e.sources (by rwa [← hall])
        rw [← hall] at happend
        rw [sourcesAll_cons, sourcesAll_cons, Source.run_mapM_ask_append, ← hall]
        exact ⟨happend, fun hresult => by rw [← hok hresult]⟩

end

/-- An expression that is resolved with success is literal. -/
lemma literal_of_resolve (h : (e.resolve ctx).run log = ((e', .ok ()), mid)) : e'.Literal := by
  have hsources : e'.sources = ((e.sources.mapM Source.ask).run log).1 :=
    congrArg Prod.fst ((asked_resolve ctx e log h).2 rfl)
  intro s hs
  rw [hsources] at hs
  exact Source.isLiteral_of_mem_mapM_ask s hs

end Expression

end DirectoryLens
