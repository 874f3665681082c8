/-
Expressions that are joined alike, and differ in their leaves only.

* `Expression.Leafwise`: two expressions whose leaves stand in a relation, one by one;
* `Leafwise.forall₂_leaves`: their leaves from left to right are related;
* `Leafwise.eq_of_leaves`: an expression joined like another is given by its leaves.
-/
import DirectoryLens.Proofs.Expression.Asking

namespace DirectoryLens.Expression

/-- Two expressions that are joined alike, with leaves that are related one by one. -/
inductive Leafwise (R : Leaf → Leaf → Prop) : Expression → Expression → Prop
  | leaf {l l' : Leaf} : R l l' → Leafwise R (.leaf l) (.leaf l')
  | composite {kind : Connective} {symbol : Symbol} {es es' : List Expression} :
      List.Forall₂ (Leafwise R) es es' →
      Leafwise R (.composite kind symbol es) (.composite kind symbol es')

namespace Leafwise

variable {R S : Leaf → Leaf → Prop} {e e₁ e₂ : Expression} {es es₁ es₂ : List Expression}

mutual

/-- The leaves of two such expressions are related. -/
lemma forall₂_leaves : ∀ {e e₁ : Expression}, Leafwise R e e₁ →
    List.Forall₂ R e.leaves e₁.leaves
  | .leaf l, _, h => by
      cases h with
      | leaf h =>
          rw [leaves, leaves]
          exact .cons h .nil
  | .composite kind symbol es, _, h => by
      cases h with
      | composite h =>
          rw [leaves, leaves]
          exact forall₂_leavesAll h

/-- The leaves of several such expressions are related. -/
lemma forall₂_leavesAll : ∀ {es es₁ : List Expression}, List.Forall₂ (Leafwise R) es es₁ →
    List.Forall₂ R (leavesAll es) (leavesAll es₁)
  | [], _, h => by
      obtain rfl := List.forall₂_nil_left_iff.mp h
      rw [leavesAll]
      exact .nil
  | e :: es, _, h => by
      obtain ⟨e₁, es₁, he, hes, rfl⟩ := List.forall₂_cons_left_iff.mp h
      rw [leavesAll, leavesAll]
      exact List.rel_append (forall₂_leaves he) (forall₂_leavesAll hes)

end

/-- Two expressions of this kind have as many leaves as each other. -/
lemma length_leaves (h : Leafwise R e e₁) : e₁.leaves.length = e.leaves.length :=
  h.forall₂_leaves.length_eq.symm

/-- Several expressions of this kind have as many leaves as the others. -/
lemma length_leavesAll (h : List.Forall₂ (Leafwise R) es es₁) :
    (leavesAll es₁).length = (leavesAll es).length :=
  (forall₂_leavesAll h).length_eq.symm

mutual

/-- **Of the expressions that are joined like another one each is given by its leaves.** -/
theorem eq_of_leaves : ∀ {e e₁ e₂ : Expression}, Leafwise R e e₁ → Leafwise S e e₂ →
    e₁.leaves = e₂.leaves → e₁ = e₂
  | .leaf l, _, _, h₁, h₂, h => by
      cases h₁
      cases h₂
      rw [leaves, leaves] at h
      rw [List.singleton_inj.mp h]
  | .composite kind symbol es, _, _, h₁, h₂, h => by
      cases h₁ with
      | composite h₁ =>
          cases h₂ with
          | composite h₂ =>
              rw [leaves, leaves] at h
              rw [eq_of_leavesAll h₁ h₂ h]

/-- Of several expressions that are joined like others each is given by the leaves of all. -/
theorem eq_of_leavesAll : ∀ {es es₁ es₂ : List Expression}, List.Forall₂ (Leafwise R) es es₁ →
    List.Forall₂ (Leafwise S) es es₂ → leavesAll es₁ = leavesAll es₂ → es₁ = es₂
  | [], _, _, h₁, h₂, _ => by
      rw [List.forall₂_nil_left_iff.mp h₁, List.forall₂_nil_left_iff.mp h₂]
  | e :: es, _, _, h₁, h₂, h => by
      obtain ⟨e₁, es₁, he₁, hes₁, rfl⟩ := List.forall₂_cons_left_iff.mp h₁
      obtain ⟨e₂, es₂, he₂, hes₂, rfl⟩ := List.forall₂_cons_left_iff.mp h₂
      rw [leavesAll, leavesAll] at h
      obtain ⟨hfirst, hrest⟩ := List.append_inj h
        (he₁.length_leaves.trans he₂.length_leaves.symm)
      rw [eq_of_leaves he₁ he₂ hfirst, eq_of_leavesAll hes₁ hes₂ hrest]

end

end Leafwise

end DirectoryLens.Expression
