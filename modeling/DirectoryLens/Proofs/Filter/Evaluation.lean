/-
The truth of filters on an entry, which may be undefined.

* `Truth`: true, false or undefined;
* `Symbol.weigh`: what a mark makes of the truths of its children;
* `Filter.truth`: the truth of a filter, by that of its assertions;
* `Reading`: an entry with an order of values, under which assertions have a truth;
* `truth_all_eq_yes_iff`, `truth_no_eq_yes_iff`: when conjunctions and negations are true;
* `Reading.truth_lessOrEqual_eq_no_iff`, `Reading.truth_greaterOrEqual_eq_no_iff`: when bounds are
  false;
* `Reading.truth_denied_eq_yes_iff`: when the denial of a filter is true of an attribute that has
  values.

An assertion on an attribute that the entry lacks is false or undefined, and its negation is true in
the first case alone.
-/
import Mathlib.Tactic
import DirectoryLens.Filter.Basic

namespace DirectoryLens

/-! ### Truth -/

/-- The truth of a filter on an entry. -/
inductive Truth
  | no
  | undefined
  | yes
  deriving DecidableEq

namespace Truth

/-- The truth of what holds or does not. -/
def ofProp (p : Prop) [Decidable p] : Truth :=
  if p then .yes else .no

/-- The truth of a negation. -/
def negate : Truth → Truth
  | .no => .yes
  | .undefined => .undefined
  | .yes => .no

/-- What holds is true. -/
@[simp] lemma ofProp_eq_yes_iff {p : Prop} [Decidable p] : ofProp p = .yes ↔ p := by
  by_cases h : p <;> simp [ofProp, h]

/-- What does not hold is false. -/
@[simp] lemma ofProp_eq_no_iff {p : Prop} [Decidable p] : ofProp p = .no ↔ ¬p := by
  by_cases h : p <;> simp [ofProp, h]

/-- The truth of a conjunction: false when a part is, and undefined when only that keeps it from
being true. -/
def all (ts : List Truth) : Truth :=
  if ∀ t ∈ ts, t = .yes then .yes else if .no ∈ ts then .no else .undefined

/-- The truth of a disjunction: true when a part is, and undefined when only that keeps it from
being false. -/
def any (ts : List Truth) : Truth :=
  if .yes ∈ ts then .yes else if ∀ t ∈ ts, t = .no then .no else .undefined

/-- A negation is true when what it negates is false. -/
@[simp] lemma negate_eq_yes_iff {t : Truth} : t.negate = .yes ↔ t = .no := by
  cases t <;> decide

/-- A conjunction is true when each of its parts is. -/
@[simp] lemma all_eq_yes_iff {ts : List Truth} : all ts = .yes ↔ ∀ t ∈ ts, t = .yes := by
  rw [all]
  split_ifs with hall hno
  · exact iff_of_true rfl hall
  · exact iff_of_false nofun hall
  · exact iff_of_false nofun hall

/-- A disjunction of one part has the truth of that part. -/
@[simp] lemma any_singleton (t : Truth) : any [t] = t := by
  cases t <;> decide

end Truth

/-- What a mark makes of the truths of its children. A negation denies that some child is true. -/
def Symbol.weigh : Symbol → List Truth → Truth
  | .all, ts => .all ts
  | .any, ts => .any ts
  | .no, ts => (Truth.any ts).negate

namespace Filter

mutual

/-- The truth of a filter, by that of its assertions. -/
def truth (test : Filter → Truth) : Filter → Truth
  | .item name comparator pieces => test (.item name comparator pieces)
  | .extensible name rule value => test (.extensible name rule value)
  | .composite symbol fs => symbol.weigh (truthAll test fs)

/-- The truths of several filters, by those of their assertions. -/
def truthAll (test : Filter → Truth) : List Filter → List Truth
  | [] => []
  | f :: fs => truth test f :: truthAll test fs

end

variable {test : Filter → Truth} {f : Filter} {fs : List Filter}

/-- Several filters have the truth of each. -/
lemma truthAll_eq_map : truthAll test fs = fs.map (truth test) := by
  induction fs with
  | nil => rfl
  | cons f fs ih => rw [truthAll, ih, List.map_cons]

/-- A conjunction is true when each of its parts is. -/
@[simp] lemma truth_all_eq_yes_iff :
    (Filter.composite .all fs).truth test = .yes ↔ ∀ f ∈ fs, f.truth test = .yes := by
  simp [truth, Symbol.weigh, truthAll_eq_map]

/-- A negation is true when what it negates is false. -/
@[simp] lemma truth_no_eq_yes_iff :
    (Filter.composite .no [f]).truth test = .yes ↔ f.truth test = .no := by
  simp [truth, Symbol.weigh, truthAll_eq_map]

end Filter

/-! ### Assertions on an entry -/

/-- Of three propositions one holds, and no other. -/
def OneHolds (p q s : Prop) : Prop :=
  (p ∧ ¬q ∧ ¬s) ∨ (¬p ∧ q ∧ ¬s) ∨ (¬p ∧ ¬q ∧ s)

/-- An entry, by the values of its attributes, and how assertions on it are read: values are in a
total order, up to equivalence, and an assertion on an attribute that the entry lacks is not
true. -/
structure Reading where
  values : String → List Octets
  le : Octets → Octets → Prop
  decidable : DecidableRel le
  total : ∀ x y, le x y ∨ le y x
  trans : ∀ {x y z}, le x y → le y z → le x z
  /-- The truth of assertions on attributes that the entry lacks. -/
  missing : Filter → Truth
  missing_ne_yes : ∀ f, missing f ≠ .yes
  /-- The truth of assertions of other kinds than presence and order. -/
  other : Filter → Truth

namespace Reading

variable {r : Reading} {name : String} {bs x y : Octets}

instance (r : Reading) : DecidableRel r.le :=
  r.decidable

/-- A value is strictly less than another. -/
def lt (r : Reading) (x y : Octets) : Prop :=
  r.le x y ∧ ¬ r.le y x

/-- The truth of an assertion. One of an order is true when some value satisfies it, and one of
presence when there is a value. -/
def test (r : Reading) : Filter → Truth
  | .item name comparator pieces =>
    if r.values name = [] then r.missing (.item name comparator pieces)
    else match comparator, pieces with
      | .equal, [[], []] => .yes
      | .lessOrEqual, [bs] => .ofProp (∃ x ∈ r.values name, r.le x bs)
      | .greaterOrEqual, [bs] => .ofProp (∃ x ∈ r.values name, r.le bs x)
      | _, _ => r.other (.item name comparator pieces)
  | .extensible name rule value =>
    if r.values name = [] then r.missing (.extensible name rule value)
    else r.other (.extensible name rule value)
  | .composite symbol fs => r.other (.composite symbol fs)

/-- The truth of a filter. -/
def truth (r : Reading) (f : Filter) : Truth :=
  f.truth r.test

/-- Of two values that are not the one way round in order the second is strictly less. -/
lemma lt_iff : r.lt x y ↔ ¬ r.le y x :=
  ⟨And.right, fun h => ⟨(r.total x y).resolve_right h, h⟩⟩

/-- Of two values the one is strictly less, or strictly greater, or each is at most the other. -/
lemma oneHolds (r : Reading) (x y : Octets) :
    OneHolds (r.lt x y) (r.lt y x) (r.le y x ∧ r.le x y) := by
  rw [OneHolds, lt_iff, lt_iff]
  have htotal := r.total x y
  tauto

/-- Presence is true of an attribute that has values. -/
@[simp] lemma truth_present_eq_yes_iff :
    r.truth (.item name .equal [[], []]) = .yes ↔ r.values name ≠ [] := by
  rw [truth, Filter.truth, test]
  split_ifs with h
  · exact iff_of_false (r.missing_ne_yes _) (absurd h)
  · exact iff_of_true rfl h

/-- An upper bound is true when it bounds some value. -/
@[simp] lemma truth_lessOrEqual_eq_yes_iff :
    r.truth (.item name .lessOrEqual [bs]) = .yes ↔ ∃ x ∈ r.values name, r.le x bs := by
  rw [truth, Filter.truth, test]
  split_ifs with h
  · exact iff_of_false (r.missing_ne_yes _) (by simp [h])
  · exact Truth.ofProp_eq_yes_iff

/-- A lower bound is true when it bounds some value. -/
@[simp] lemma truth_greaterOrEqual_eq_yes_iff :
    r.truth (.item name .greaterOrEqual [bs]) = .yes ↔ ∃ x ∈ r.values name, r.le bs x := by
  rw [truth, Filter.truth, test]
  split_ifs with h
  · exact iff_of_false (r.missing_ne_yes _) (by simp [h])
  · exact Truth.ofProp_eq_yes_iff

/-- Of an attribute with values an upper bound is false when all of them are greater. -/
lemma truth_lessOrEqual_eq_no_iff (h : r.values name ≠ []) :
    r.truth (.item name .lessOrEqual [bs]) = .no ↔ ∀ x ∈ r.values name, r.lt bs x := by
  simp [truth, Filter.truth, test, h, lt_iff]

/-- Of an attribute with values a lower bound is false when all of them are less. -/
lemma truth_greaterOrEqual_eq_no_iff (h : r.values name ≠ []) :
    r.truth (.item name .greaterOrEqual [bs]) = .no ↔ ∀ x ∈ r.values name, r.lt x bs := by
  simp [truth, Filter.truth, test, h, lt_iff]

/-- A filter denied of an attribute that is asked for is true when the attribute has values and the
filter is false. -/
lemma truth_denied_eq_yes_iff {f : Filter} :
    r.truth (.composite .all [.composite .no [f], .item name .equal [[], []]]) = .yes ↔
      r.values name ≠ [] ∧ r.truth f = .no := by
  rw [truth, Filter.truth_all_eq_yes_iff, List.forall_mem_cons, List.forall_mem_singleton,
    Filter.truth_no_eq_yes_iff, and_comm]
  exact and_congr_left fun _ => truth_present_eq_yes_iff

/-- An upper bound is denied of the attributes that have values, all of them greater. -/
lemma truth_denied_lessOrEqual_iff (name : String) (bs : Octets) :
    r.truth (.composite .all [.composite .no [.item name .lessOrEqual [bs]],
      .item name .equal [[], []]]) = .yes ↔
      r.values name ≠ [] ∧ ∀ x ∈ r.values name, r.lt bs x := by
  rw [truth_denied_eq_yes_iff]
  exact and_congr_right truth_lessOrEqual_eq_no_iff

/-- A lower bound is denied of the attributes that have values, all of them less. -/
lemma truth_denied_greaterOrEqual_iff (name : String) (bs : Octets) :
    r.truth (.composite .all [.composite .no [.item name .greaterOrEqual [bs]],
      .item name .equal [[], []]]) = .yes ↔
      r.values name ≠ [] ∧ ∀ x ∈ r.values name, r.lt x bs := by
  rw [truth_denied_eq_yes_iff]
  exact and_congr_right truth_greaterOrEqual_eq_no_iff

end Reading

end DirectoryLens
