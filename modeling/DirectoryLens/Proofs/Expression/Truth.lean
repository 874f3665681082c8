/-
When filters and expressions hold.

* `Symbol.Joins`: what a mark makes of the truth of its children;
* `Filter.Holds`, `Expression.Holds`: a filter under a reading of its assertions, and an expression
  under one of its leaves;
* `Entry.BitsSet`, `Entry.Meets`: assertions put to an entry, the rule of bits being its own and
  the others being left open;
* `Leaf.HeldBy`: a leaf read as its value being the one that is hydrated;
* `truths_eq`: filters that hold when expressions do are joined alike.
-/
import Mathlib.Tactic
import DirectoryLens.Entry.Hydration
import DirectoryLens.Expression.Basic

namespace DirectoryLens

open Text

/-! ### Truth -/

/-- What a mark makes of the truth of its children: all of them hold, some does, or none. -/
def Symbol.Joins : Symbol → List Prop → Prop
  | .all, ps => ∀ p ∈ ps, p
  | .any, ps => ∃ p ∈ ps, p
  | .no, ps => ∀ p ∈ ps, ¬p

namespace Filter

mutual

/-- A filter holds under a reading of its assertions. -/
def Holds (test : Filter → Prop) : Filter → Prop
  | .item name comparator pieces => test (.item name comparator pieces)
  | .extensible name rule value => test (.extensible name rule value)
  | .composite symbol fs => symbol.Joins (truths test fs)

/-- Which of several filters hold. -/
def truths (test : Filter → Prop) : List Filter → List Prop
  | [] => []
  | f :: fs => Holds test f :: truths test fs

end

/-- A negation holds when what it negates does not. -/
@[simp] lemma holds_no {test : Filter → Prop} {f : Filter} :
    (Filter.composite .no [f]).Holds test ↔ ¬ f.Holds test := by
  rw [Holds, truths, truths, Symbol.Joins]
  exact List.forall_mem_singleton

end Filter

namespace Expression

mutual

/-- An expression holds under a reading of its leaves. -/
def Holds (test : Leaf → Prop) : Expression → Prop
  | .leaf l => test l
  | .composite kind _ es => kind.defaultSymbol.Joins (truths test es)

/-- Which of several expressions hold. -/
def truths (test : Leaf → Prop) : List Expression → List Prop
  | [] => []
  | e :: es => Holds test e :: truths test es

end

end Expression

/-- Filters that hold when expressions do are joined alike. -/
lemma truths_eq {tests : Filter → Prop} {leaves : Leaf → Prop} {fs : List Filter}
    {es : List Expression} (h : List.Forall₂ (fun f e => f.Holds tests ↔ e.Holds leaves) fs es) :
    Filter.truths tests fs = Expression.truths leaves es := by
  induction h with
  | nil => rfl
  | cons head _ ih => rw [Filter.truths, Expression.truths, ih, propext head]

/-! ### Assertions on entries -/

/-- The number of sixty-four bits that a raw value is a decimal text of. -/
def RawValue.number? (raw : RawValue) : Option Int64 :=
  raw.text?.bind fun s => Number.readInt64? s.toList

/-- The bits of a mask are set in a value of an attribute, both being decimal texts of numbers in
two's complement. Names are compared folded. -/
def Entry.BitsSet (e : Entry) (name : String) (mask : Octets) : Prop :=
  ∃ m, (RawValue.binary mask).number? = some m ∧
    ∃ p ∈ e.toList, fold p.1 = fold name ∧ ∃ raw ∈ p.2, ∃ n, raw.number? = some n ∧ n &&& m = m

/-- An assertion put to an entry: the rule of bits asks for the bits of its mask, and every other
assertion has a reading of its own. -/
def Entry.Meets (e : Entry) (other : Filter → Prop) : Filter → Prop
  | .extensible name rule value =>
    if rule = .bitwiseAnd then e.BitsSet name value else other (.extensible name rule value)
  | f => other f

/-- A leaf with a value given at once is held by a hydrated entry that has this value under the
leaf's name. -/
def Leaf.HeldBy (out : HydratedEntry) (l : Leaf) : Prop :=
  ∃ v, l.operand.source = .literal v ∧ out.get? l.operand.name = some v

end DirectoryLens
