/-
Expressions that are resolved again and again.

* `Expression.fresh`: an expression without what resolution made of it;
* `resolve_fresh`: resolution takes no notice of what an earlier one made;
* `ask_resolve`: what an expression gives when it is asked does not change by resolution;
* `Expression.resolveEach`: an expression resolved under several contexts, one after another,
  whatever comes of each;
* `resolve_forgets_history`: a further resolution is that of an expression whose sources were all
  asked at first, and each source is asked once at most.
-/
import DirectoryLens.Proofs.Expression.Asking

namespace DirectoryLens

/-- The operand without what resolution made of it. -/
def Operand.fresh (o : Operand) : Operand :=
  { o with translated := "", converted := none, flag := none }

/-- The leaf without what resolution made of it. -/
def Leaf.fresh (l : Leaf) : Leaf :=
  { l with operand := l.operand.fresh }

namespace Expression

mutual

/-- The expression without what resolution made of it, but under the marks that it settles on. -/
def fresh : Expression → Expression
  | .leaf l => .leaf l.fresh
  | .composite kind symbol es =>
    .composite kind (Composite.settledSymbol kind symbol es.length) (freshAll es)

/-- The expressions without what resolution made of them. -/
def freshAll : List Expression → List Expression
  | [] => []
  | e :: es => fresh e :: freshAll es

end

/-! ### Marks and sizes -/

variable {ctx : Context} {es es' : List Expression} {log mid : CallLog}
  {result : Except QueryError Unit}

/-- A mark is settled for good. -/
@[simp] lemma settledSymbol_settledSymbol (kind : Connective) (symbol : Symbol) (size : Nat) :
    Composite.settledSymbol kind (Composite.settledSymbol kind symbol size) size
      = Composite.settledSymbol kind symbol size := by
  simp only [Composite.settledSymbol]
  split <;> rfl

/-- A mark settles as it does before its composite is resolved. -/
@[simp] lemma settledSymbol_symbolAfter (result : Except QueryError Unit) (kind : Connective)
    (symbol : Symbol) (size : Nat) :
    Composite.settledSymbol kind (symbolAfter result kind symbol size) size
      = Composite.settledSymbol kind symbol size := by
  cases result with
  | error => rfl
  | ok => exact settledSymbol_settledSymbol kind symbol size

/-- Resolution keeps the number of expressions. -/
lemma length_of_resolveAll (h : (resolveAll ctx es).run log = ((es', result), mid)) :
    es'.length = es.length := by
  have hall := forall₂_resolveAll ctx es log
  rw [h] at hall
  exact hall.length_eq.symm

/-- Asking keeps the number of expressions. -/
lemma length_askAll (es : List Expression) : ∀ log : CallLog,
    ((askAll es).run log).1.length = es.length := by
  induction es with
  | nil => simp
  | cons e es ih => simp [ih]

/-! ### One resolution -/

mutual

/-- **Resolution takes no notice of what an earlier one made.** -/
theorem resolve_fresh (ctx : Context) : ∀ (e : Expression) (log : CallLog) {e' : Expression}
    {result : Except QueryError Unit} {mid : CallLog},
    (e.resolve ctx).run log = ((e', result), mid) →
    ∃ e'', (e.fresh.resolve ctx).run log = ((e'', result), mid) ∧ (result = .ok () → e'' = e')
  | .leaf l, log, e', result, mid, h => by
      rw [resolve_leaf] at h
      rw [fresh, resolve_leaf]
      cases h
      exact ⟨_, rfl, fun _ => rfl⟩
  | .composite kind symbol es, log, e', result, mid, h => by
      obtain ⟨es', hes, rfl⟩ := resolve_composite_iff.mp h
      obtain ⟨es'', hes'', hok⟩ := resolveAll_fresh ctx es log hes
      rw [fresh]
      refine ⟨_, resolve_composite_iff.mpr ⟨es'', hes'', rfl⟩, fun hresult => ?_⟩
      rw [hok hresult, hresult, length_of_resolveAll hes]
      exact congrArg (fun s => Expression.composite kind s es')
        (settledSymbol_settledSymbol kind symbol es.length)

/-- Resolution of several expressions takes no notice of what an earlier one made. -/
theorem resolveAll_fresh (ctx : Context) : ∀ (es : List Expression) (log : CallLog)
    {es' : List Expression} {result : Except QueryError Unit} {mid : CallLog},
    (resolveAll ctx es).run log = ((es', result), mid) →
    ∃ es'', (resolveAll ctx (freshAll es)).run log = ((es'', result), mid)
      ∧ (result = .ok () → es'' = es')
  | [], log, es', result, mid, h => by
      rw [freshAll]
      exact ⟨es', h, fun _ => rfl⟩
  | e :: es, log, es', result, mid, h => by
      rw [freshAll]
      rcases resolveAll_cons_iff.mp h with
        ⟨e', fault, he, rfl, rfl⟩ | ⟨e', rest, mid', he, hes, rfl⟩
      · obtain ⟨e'', he'', -⟩ := resolve_fresh ctx e log he
        exact ⟨_, resolveAll_cons_iff.mpr (.inl ⟨e'', fault, he'', rfl, rfl⟩), fun h => by cases h⟩
      · obtain ⟨e'', he'', hok⟩ := resolve_fresh ctx e log he
        obtain ⟨rest', hes', hoks⟩ := resolveAll_fresh ctx es mid' hes
        refine ⟨_, resolveAll_cons_iff.mpr (.inr ⟨e'', rest', mid', he'', hes', rfl⟩),
          fun hresult => ?_⟩
        rw [hok rfl, hoks hresult]

end

mutual

/-- **What an expression gives when it is asked does not change by resolution**, up to what
resolution makes of it, and nor do the calls that have been made by then. -/
theorem ask_resolve (ctx : Context) : ∀ (e : Expression) (log : CallLog) {e' : Expression}
    {result : Except QueryError Unit} {mid : CallLog},
    (e.resolve ctx).run log = ((e', result), mid) →
    ((ask e').run mid).1.fresh = ((ask e).run log).1.fresh
      ∧ ((ask e').run mid).2 = ((ask e).run log).2
  | .leaf l, log, e', result, mid, h => by
      rw [resolve_leaf] at h
      cases h
      obtain ⟨translated, converted, flag, hsettle⟩ := exists_settle_operand_eq ctx l.operand
        (l.operand.source.evaluate.run log).1
      rw [ask_leaf, ask_leaf, source_settle, settle_leaf_fst, hsettle, fresh, fresh]
      exact ⟨rfl, rfl⟩
  | .composite kind symbol es, log, e', result, mid, h => by
      obtain ⟨es', hes, rfl⟩ := resolve_composite_iff.mp h
      obtain ⟨hfresh, hlog⟩ := askAll_resolve ctx es log hes
      rw [ask_composite, ask_composite, fresh, fresh, hfresh, length_askAll, length_askAll,
        length_of_resolveAll hes, settledSymbol_symbolAfter]
      exact ⟨rfl, hlog⟩

/-- What expressions give when they are asked does not change by resolution. -/
theorem askAll_resolve (ctx : Context) : ∀ (es : List Expression) (log : CallLog)
    {es' : List Expression} {result : Except QueryError Unit} {mid : CallLog},
    (resolveAll ctx es).run log = ((es', result), mid) →
    freshAll ((askAll es').run mid).1 = freshAll ((askAll es).run log).1
      ∧ ((askAll es').run mid).2 = ((askAll es).run log).2
  | [], log, es', result, mid, h => by
      rw [resolveAll_nil] at h
      cases h
      exact ⟨rfl, rfl⟩
  | e :: es, log, es', result, mid, h => by
      rcases resolveAll_cons_iff.mp h with
        ⟨e', fault, he, rfl, rfl⟩ | ⟨e', rest, mid', he, hes, rfl⟩
      · obtain ⟨hfresh, hlog⟩ := ask_resolve ctx e log he
        rw [askAll_cons, askAll_cons, freshAll, freshAll, hfresh, hlog]
        exact ⟨rfl, rfl⟩
      · obtain ⟨hfresh, hlog⟩ := ask_resolve ctx e log he
        obtain ⟨hfreshes, hlogs⟩ := askAll_resolve ctx es mid' hes
        -- a first expression that has been resolved makes no more calls, whenever it is asked
        have hliteral := ask_of_literal (literal_of_resolve he)
        rw [hliteral] at hfresh hlog
        rw [askAll_cons, askAll_cons, freshAll, freshAll, hliteral, hfresh, ← hlog, hfreshes, hlogs]
        exact ⟨rfl, rfl⟩

end

/-! ### Many resolutions -/

/-- The expression resolved under several contexts, one after another, whatever comes of each. -/
def resolveEach : List Context → Expression → Calling Expression
  | [], e => pure e
  | ctx :: history, e => do
    let (e, _) ← e.resolve ctx
    resolveEach history e

/-- An expression is resolved under the first context, and then under the others. -/
lemma run_resolveEach_cons (ctx : Context) (history : List Context) (e : Expression)
    (log : CallLog) : (resolveEach (ctx :: history) e).run log =
      (resolveEach history ((e.resolve ctx).run log).1.1).run ((e.resolve ctx).run log).2 :=
  rfl

/-- Any number of resolutions asks sources from left to right, and does not change what an
expression gives when it is asked. -/
lemma ask_resolveEach (history : List Context) : ∀ (e : Expression) (log : CallLog),
    let before := (resolveEach history e).run log
    Asked e.sources log before.1.sources before.2
      ∧ ((ask before.1).run before.2).1.fresh = ((ask e).run log).1.fresh := by
  induction history with
  | nil => exact fun e log => ⟨.stop e.sources log, rfl⟩
  | cons ctx history ih =>
      intro e log
      obtain ⟨hasked, hfresh⟩ := ih ((e.resolve ctx).run log).1.1 ((e.resolve ctx).run log).2
      rw [run_resolveEach_cons]
      exact ⟨(asked_resolve ctx e log rfl).1.trans hasked,
        hfresh.trans (ask_resolve ctx e log rfl).1⟩

/-- **Resolution forgets what was resolved before.** After any number of resolutions, under any
contexts and with whatever success, a further one succeeds or fails as that of the first expression
with its sources asked at first, and gives the same expression when it succeeds. By then some of the
first leaves have been asked, from left to right and each of them once, and hold what they gave;
the others have not. -/
theorem resolve_forgets_history (e : Expression) (history : List Context) (log : CallLog)
    (ctx : Context) :
    let asked := (ask e).run log
    let before := (resolveEach history e).run log
    let again := (before.1.resolve ctx).run before.2
    let first := (asked.1.resolve ctx).run asked.2
    again.1.2 = first.1.2
      ∧ (again.1.2 = .ok () → again.1.1 = first.1.1)
      ∧ ∃ k, again.1.1.sources = asked.1.sources.take k ++ e.sources.drop k
        ∧ again.2 = (Source.labels (e.sources.take k)).reverse ++ log := by
  intro asked before again first
  obtain ⟨hasked, hfresh⟩ := ask_resolveEach history e log
  -- the expression at hand is resolved as it is with its sources asked, and that as it is without
  -- what resolution made of it, where it no longer differs from the first expression
  obtain ⟨e₁, hlater, hlaterOk⟩ := resolve_ask ctx before.1 before.2 asked.2 rfl
  obtain ⟨e₂, hlaterFresh, hlaterFreshOk⟩ := resolve_fresh ctx _ asked.2 hlater
  obtain ⟨e₃, hfirstFresh, hfirstFreshOk⟩ := resolve_fresh ctx asked.1 asked.2 rfl
  rw [hfresh, hfirstFresh] at hlaterFresh
  have hresult : first.1.2 = again.1.2 := congrArg (·.1.2) hlaterFresh
  have hexpression : e₃ = e₂ := congrArg (·.1.1) hlaterFresh
  refine ⟨hresult.symm, fun hok => ?_, ?_⟩
  · calc again.1.1 = e₁ := (hlaterOk hok).1.symm
      _ = e₂ := (hlaterFreshOk hok).symm
      _ = e₃ := hexpression.symm
      _ = first.1.1 := hfirstFreshOk (hresult.trans hok)
  · have hagain := (asked_resolve ctx before.1 before.2 rfl).1
    obtain ⟨k, hsources, hlog⟩ := (hasked.trans hagain).exists_take
    rw [← sources_run_ask] at hsources
    exact ⟨k, hsources, hlog⟩

end Expression

end DirectoryLens
