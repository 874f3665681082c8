/-
The expressions that can be built, and the shape that all of them have.

* `Expression.Built`: what the constructors, the builders and resolution make, in any order;
* `Expression.Shaped`: every composite is written with a mark that its connective allows, and a
  negation has one leaf at most;
* `resolve_leaf`, `resolve_composite`, `resolveAll_cons`: resolution by the parts of an
  expression; `resolve_leaf_of_literal` for a value that is given at once;
* `forall₂_resolveAll`: of several expressions each is resolved or left as it was;
* `Built.shaped`: whatever is built has the shape.
-/
import DirectoryLens.Proofs.Traversal
import DirectoryLens.Expression.Builder
import DirectoryLens.Expression.Resolution

namespace DirectoryLens.Expression

/-! ### What is built, and its shape -/

/-- An expression that is made by constructors and builders, its parts resolved at any time, with
whatever success. -/
inductive Built : Expression → Prop
  | compare (name : String) (comparator : Comparator) (source : Source) :
      Built (.leaf (.compare name comparator source))
  | wildcard (name : String) (placement : Placement) (source : Source) :
      Built (.leaf (.wildcard name placement source))
  | rule (name : String) (id : RuleId) (source : Source) :
      Built (.leaf (.rule name id source))
  | all {es : List Expression} : (∀ e ∈ es, Built e) → Built (all es)
  | any {es : List Expression} : (∀ e ∈ es, Built e) → Built (any es)
  | ofClasses {es : List Expression} : (∀ e ∈ es, Built e) → Built (ofClasses es)
  | ofKind (kind : Connective) : Built (Composite.ofKind kind).toExpression
  | add {c c' : Composite} {child : Expression} {log : CallLog} :
      Built c.toExpression → Built child → ((c.add child).run.run log).1 = .ok c' →
      Built c'.toExpression
  | setSymbol {c c' : Composite} {text : String} :
      Built c.toExpression → c.setSymbol text = .ok c' → Built c'.toExpression
  | resolve {e : Expression} (ctx : Context) (log : CallLog) :
      Built e → Built ((e.resolve ctx).run log).1.1

/-- Every composite is written with a mark that its connective allows, and a negation has no child
or one leaf. -/
inductive Shaped : Expression → Prop
  | leaf (l : Leaf) : Shaped (.leaf l)
  | composite {kind : Connective} {symbol : Symbol} {es : List Expression} :
      symbol ∈ kind.allowed → (kind = .not → es = [] ∨ ∃ l, es = [.leaf l]) →
      (∀ e ∈ es, Shaped e) → Shaped (.composite kind symbol es)

/-- A negated leaf is built like the leaf. -/
lemma Built.notLeaf {l : Leaf} (h : Built (.leaf l)) : Built (notLeaf l) := by
  have hadd : (((Composite.ofKind .not).add (.leaf l)).run.run ([] : CallLog)).1
      = .ok ⟨.not, .no, [.leaf l]⟩ := rfl
  exact .add (.ofKind .not) h hadd

/-! ### Resolution by parts -/

/-- A leaf is resolved under the value of its source. -/
lemma resolve_leaf (ctx : Context) (l : Leaf) (log : CallLog) :
    (resolve ctx (.leaf l)).run log =
      let v := l.operand.source.evaluate.run log
      let result := l.settle ctx v.1
      ((.leaf result.1, result.2), v.2) := by
  rw [resolve]
  rfl

/-- A leaf with a value that is given at once is resolved under that value, without calls. -/
lemma resolve_leaf_of_literal {l : Leaf} {v : Value} (h : l.operand.source = .literal v)
    (ctx : Context) (log : CallLog) :
    (resolve ctx (.leaf l)).run log = ((.leaf (l.settle ctx v).1, (l.settle ctx v).2), log) := by
  rw [resolve_leaf, h, Source.evaluate_literal]

/-- A composite is resolved child by child. -/
lemma resolve_composite (ctx : Context) (kind : Connective) (symbol : Symbol)
    (es : List Expression) (log : CallLog) :
    (resolve ctx (.composite kind symbol es)).run log =
      let result := (resolveAll ctx es).run log
      let settled := if result.1.2 matches .ok _
        then Composite.settledSymbol kind symbol result.1.1.length else symbol
      ((.composite kind settled result.1.1, result.1.2), result.2) := by
  rw [resolve]
  rfl

/-- Nothing is resolved without failure. -/
@[simp] lemma resolveAll_nil (ctx : Context) (log : CallLog) :
    (resolveAll ctx []).run log = (([], .ok ()), log) := by
  rw [resolveAll]
  rfl

/-- Of several expressions the first is resolved, and the others unless it fails. -/
lemma resolveAll_cons (ctx : Context) (e : Expression) (es : List Expression) (log : CallLog) :
    (resolveAll ctx (e :: es)).run log =
      match (resolve ctx e).run log with
      | ((e', .error fault), log) => ((e' :: es, .error fault), log)
      | ((e', .ok ()), log) =>
        let rest := (resolveAll ctx es).run log
        ((e' :: rest.1.1, rest.1.2), rest.2) := by
  rw [resolveAll]
  simp only [bind, StateT.bind, StateT.run]
  cases resolve ctx e log with
  | mk head log =>
      obtain ⟨e', result⟩ := head
      cases result <;> rfl

/-- Of several expressions each is resolved or left as it was. -/
lemma forall₂_resolveAll (ctx : Context) : ∀ (es : List Expression) (log : CallLog),
    List.Forall₂ (fun e e' => e' = e ∨ ∃ log, e' = ((resolve ctx e).run log).1.1) es
      ((resolveAll ctx es).run log).1.1
  | [], log => by
      rw [resolveAll_nil]
      exact .nil
  | e :: es, log => by
      rw [resolveAll_cons]
      have head : ((resolve ctx e).run log).1.1 = e
          ∨ ∃ log', ((resolve ctx e).run log).1.1 = ((resolve ctx e).run log').1.1 :=
        .inr ⟨log, rfl⟩
      revert head
      cases (resolve ctx e).run log with
      | mk result log =>
          obtain ⟨e', result⟩ := result
          intro head
          cases result with
          | error fault =>
              exact .cons head (List.forall₂_same.mpr fun _ _ => .inl rfl)
          | ok => exact .cons head (forall₂_resolveAll ctx es log)

/-! ### Whatever is built has the shape -/

/-- The mark that several classes force is one that they allow. -/
lemma settledSymbol_mem_allowed {kind : Connective} {symbol : Symbol} (h : symbol ∈ kind.allowed)
    (size : Nat) : Composite.settledSymbol kind symbol size ∈ kind.allowed := by
  rw [Composite.settledSymbol]
  split
  · rename_i hclasses
    rw [hclasses.1]
    decide
  · exact h

/-- Resolution keeps the shape. -/
lemma Shaped.resolve {e : Expression} (h : e.Shaped) (ctx : Context) : ∀ log,
    ((e.resolve ctx).run log).1.1.Shaped := by
  induction h with
  | leaf l =>
      intro log
      rw [resolve_leaf]
      exact .leaf _
  | @composite kind symbol es hsymbol hnot hes ih =>
      intro log
      have hall := forall₂_resolveAll ctx es log
      rw [resolve_composite]
      revert hall
      cases (resolveAll ctx es).run log with
      | mk result log =>
          obtain ⟨es', result⟩ := result
          intro hall
          refine .composite ?_ ?_ ?_
          · split
            · exact settledSymbol_mem_allowed hsymbol _
            · exact hsymbol
          · intro hkind
            rcases hnot hkind with rfl | ⟨l, rfl⟩
            · exact .inl (List.forall₂_nil_left_iff.mp hall)
            · -- the one child stays a leaf, resolved or not
              obtain ⟨e', es'', he, hrest, rfl⟩ := List.forall₂_cons_left_iff.mp hall
              obtain rfl := List.forall₂_nil_left_iff.mp hrest
              right
              rcases he with rfl | ⟨log', rfl⟩
              · exact ⟨l, rfl⟩
              · rw [resolve_leaf]
                exact ⟨_, rfl⟩
          · intro e' he'
            obtain ⟨e, he, rfl | ⟨log', rfl⟩⟩ := exists_mem_of_forall₂ hall he'
            · exact hes _ he
            · exact ih e he log'

/-- A child is added unless the composite is a negation that has one or would hold a composite. -/
lemma run_add (c : Composite) (child : Expression) (log : CallLog) :
    (c.add child).run.run log =
      if c.kind = .not ∧ c.children ≠ [] then (.error (.querySyntax .secondNegand), log)
      else if c.kind = .not ∧ child.isComposite then
        let shown := child.display.run log
        (.error (.querySyntax (.compositeNegand shown.1)), shown.2)
      else (.ok ⟨c.kind, Composite.settledSymbol c.kind c.symbol (c.children ++ [child]).length,
        c.children ++ [child]⟩, log) := by
  obtain ⟨kind, symbol, es⟩ := c
  cases kind with
  | and | or | classes => rfl
  | not => cases es <;> cases child <;> rfl

/-- One more child keeps the shape, a negation having refused all but its first leaf. -/
lemma Shaped.add {c c' : Composite} {child : Expression} {log : CallLog}
    (hc : c.toExpression.Shaped) (hchild : child.Shaped)
    (h : ((c.add child).run.run log).1 = .ok c') : c'.toExpression.Shaped := by
  rw [run_add] at h
  split at h
  · cases h
  · rename_i hsecond
    split at h
    · cases h
    · rename_i hcomposite
      obtain rfl := Except.ok.inj h
      cases hc with
      | composite hsymbol hnot hes =>
          refine .composite (settledSymbol_mem_allowed hsymbol _) (fun hkind => .inr ?_) ?_
          · have hnil : c.children = [] := by
              by_contra hne
              exact hsecond ⟨hkind, hne⟩
            cases child with
            | leaf l => exact ⟨l, by simp [hnil]⟩
            | composite => exact absurd ⟨hkind, rfl⟩ hcomposite
          · intro e he
            rcases List.mem_append.mp he with he | he
            · exact hes e he
            · rw [List.mem_singleton.mp he]
              exact hchild

/-- Another mark is one that the connective allows. -/
lemma Shaped.setSymbol {c c' : Composite} {text : String} (hc : c.toExpression.Shaped)
    (h : c.setSymbol text = .ok c') : c'.toExpression.Shaped := by
  obtain ⟨kind, symbol, es⟩ := c
  cases hc with
  | composite hsymbol hnot hes =>
      simp only [Composite.setSymbol] at h
      split at h
      · rename_i s hs
        obtain rfl := Except.ok.inj h
        exact .composite (List.mem_of_find?_eq_some hs) hnot hes
      · cases h

/-- **Whatever is built has the shape**: every mark is allowed, and a negation has one leaf at
most. -/
theorem Built.shaped {e : Expression} (h : e.Built) : e.Shaped := by
  induction h with
  | compare | wildcard | rule => exact .leaf _
  | all _ ih => exact .composite (by decide) (by simp) ih
  | any _ ih => exact .composite (by decide) (by simp) ih
  | ofClasses _ ih => exact .composite (settledSymbol_mem_allowed (by decide) _) (by simp) ih
  | ofKind kind =>
      exact .composite kind.defaultSymbol_mem_allowed (fun _ => .inl rfl)
        (by simp [Composite.ofKind])
  | add _ _ h ihc ihchild => exact ihc.add ihchild h
  | setSymbol _ h ih => exact ih.setSymbol h
  | resolve ctx log _ ih => exact ih.resolve ctx log

end DirectoryLens.Expression
