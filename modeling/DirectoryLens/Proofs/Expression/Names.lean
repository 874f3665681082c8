/-
The attributes that the filter of an expression names.

* `Filter.assertions`, `Filter.names`: the assertions of a filter, and the attributes they are on,
  from left to right;
* `ObjectSchema.writtenName`: the name that a schema has an attribute written with;
* `Expression.forall₂_assertions`: an expression is written with one assertion for each leaf;
* `Expression.forall₂_leaves`: resolution resolves each leaf;
* `Expression.names_of_resolve`: a resolved expression is written with the names that the schema
  has its attributes written with.
-/
import DirectoryLens.Proofs.Expression.Asking
import DirectoryLens.Proofs.Expression.Meaning

namespace DirectoryLens

/-! ### Assertions and names -/

namespace Filter

mutual

/-- The assertions of a filter, from left to right. -/
def assertions : Filter → List Filter
  | .item name comparator pieces => [.item name comparator pieces]
  | .extensible name rule value => [.extensible name rule value]
  | .composite _ fs => assertionsAll fs

/-- The assertions of several filters, from left to right. -/
def assertionsAll : List Filter → List Filter
  | [] => []
  | f :: fs => assertions f ++ assertionsAll fs

end

/-- The attribute that an assertion is on. -/
def attribute? : Filter → Option String
  | .item name _ _ => some name
  | .extensible name _ _ => some name
  | .composite _ _ => none

/-- The attributes that a filter names, from left to right. -/
def names (f : Filter) : List String :=
  f.assertions.filterMap attribute?

end Filter

/-- The name that a schema has an attribute written with. One that is mapped to no name at all is
written with its own. -/
def ObjectSchema.writtenName (s : ObjectSchema) (name : String) : String :=
  if (s.directoryName name).isEmpty then name else s.directoryName name

/-- A name that is mapped leads to the directory name that it is mapped to. -/
lemma ObjectSchema.directoryName?_of_mappedName {s : ObjectSchema} {name d : String}
    (h : s.mappedName name = .ok d) : s.directoryName? name = some d := by
  rw [mappedName] at h
  split at h
  · rename_i d' hd
    obtain rfl := Except.ok.inj h
    exact hd
  · cases h

/-! ### Leaves -/

/-- A leaf stands for one assertion, on the attribute that it is written with. -/
lemma Leaf.Denotes.exists_assertions_eq {l : Leaf} {f : Filter} (h : l.Denotes f) :
    ∃ a, f.assertions = [a] ∧ a.attribute? = some l.operand.filterName := by
  cases h <;> exact ⟨_, rfl, rfl⟩

namespace Operand

/-- A conversion leaves the name and its translation. -/
lemma exists_convert_eq (registry : Registry) (o : Operand) (v : Value) (name : String) :
    ∃ converted flag, (o.convert registry v name).1 = { o with converted, flag } := by
  rw [convert]
  split
  · exact ⟨_, _, rfl⟩
  · simp only
    split <;> exact ⟨_, _, rfl⟩

/-- An operand that is resolved under a schema is written with the name that the schema has its
attribute written with. -/
lemma filterName_settle {registry : Registry} {s : ObjectSchema} {strict : Bool} {o o' : Operand}
    {v : Value} (h : o.settle ⟨registry, some s, strict⟩ v = (o', .ok ())) :
    o'.filterName = s.writtenName o.name := by
  simp only [settle, translate] at h
  split at h
  · cases h
  · rename_i d hd
    have hname : d = s.directoryName o.name := by
      cases strict with
      | false => exact (Except.ok.inj hd).symm
      | true =>
          have hmapped : s.directoryName? o.name = some d :=
            ObjectSchema.directoryName?_of_mappedName hd
          rw [ObjectSchema.directoryName, hmapped, Option.getD_some]
    split at h
    · cases h
      rw [filterName, ObjectSchema.writtenName, hname]
      rfl
    · rename_i converter _
      have hconvert := congrArg Prod.fst h
      obtain ⟨converted, flag, heq⟩ :=
        exists_convert_eq registry { o.reset v with translated := d } v converter
      rw [heq] at hconvert
      obtain rfl := hconvert
      rw [filterName, ObjectSchema.writtenName, hname]
      rfl

end Operand

/-- A leaf that is resolved under a schema is written with the name that the schema has its
attribute written with. -/
lemma Leaf.filterName_resolve {registry : Registry} {s : ObjectSchema} {strict : Bool}
    {l l' : Leaf} {log mid : CallLog}
    (h : (l.resolve ⟨registry, some s, strict⟩).run log = ((l', .ok ()), mid)) :
    l'.operand.filterName = s.writtenName l.operand.name := by
  have hsettle : l.settle ⟨registry, some s, strict⟩ (l.operand.source.evaluate.run log).1
      = (l', .ok ()) := congrArg Prod.fst h
  rw [settle] at hsettle
  split at hsettle
  · rename_i o ho
    obtain rfl := congrArg Prod.fst hsettle
    exact Operand.filterName_settle ho
  · cases hsettle

namespace Expression

/-! ### Filters and leaves -/

/-- A composite is written with the assertions of its children. -/
lemma exists_filterAll_of_filter {kind : Connective} {symbol : Symbol} {es : List Expression}
    {f : Filter} {log log' : CallLog}
    (h : (filter (.composite kind symbol es)).run.run log = (.ok f, log')) :
    ∃ fs, (filterAll es).run.run log = (.ok fs, log')
      ∧ f.assertions = Filter.assertionsAll fs := by
  rcases filter_composite_eq_ok h with ⟨e, -, rfl, he⟩ | ⟨-, -, fs, hfs, rfl⟩
  · refine ⟨[f], ?_, ?_⟩
    · rw [filterAll, Writing.run_bind_of_ok he]
      rfl
    · simp [Filter.assertionsAll]
  · exact ⟨fs, hfs, by rw [Filter.assertions]⟩

mutual

/-- **An expression is written with one assertion for each leaf**, on the attribute that the leaf
is written with. -/
theorem forall₂_assertions : ∀ {e : Expression} {f : Filter} {log log' : CallLog},
    e.filter.run.run log = (.ok f, log') →
    List.Forall₂ (fun l a => ∃ fl log log', l.filter.run.run log = (.ok fl, log')
      ∧ fl.assertions = [a] ∧ a.attribute? = some l.operand.filterName) e.leaves f.assertions
  | .leaf l, f, log, log', h => by
      rw [filter] at h
      obtain ⟨a, ha, hname⟩ := (Leaf.denotes_of_filter h).1.exists_assertions_eq
      rw [leaves, ha]
      exact .cons ⟨f, log, log', h, ha, hname⟩ .nil
  | .composite kind symbol es, f, log, log', h => by
      obtain ⟨fs, hfs, hassertions⟩ := exists_filterAll_of_filter h
      rw [leaves, hassertions]
      exact forall₂_assertionsAll hfs

/-- Expressions are written with one assertion for each leaf. -/
theorem forall₂_assertionsAll : ∀ {es : List Expression} {fs : List Filter} {log log' : CallLog},
    (filterAll es).run.run log = (.ok fs, log') →
    List.Forall₂ (fun l a => ∃ fl log log', l.filter.run.run log = (.ok fl, log')
      ∧ fl.assertions = [a] ∧ a.attribute? = some l.operand.filterName) (leavesAll es)
      (Filter.assertionsAll fs)
  | [], fs, log, log', h => by
      rw [filterAll] at h
      cases h
      exact .nil
  | e :: es, fs, log, log', h => by
      rw [filterAll] at h
      obtain ⟨f, mid, hf, hrest⟩ := Writing.bind_eq_ok h
      obtain ⟨gs, mid', hgs, hpure⟩ := Writing.bind_eq_ok hrest
      cases hpure
      rw [leavesAll, Filter.assertionsAll]
      exact List.rel_append (forall₂_assertions hf) (forall₂_assertionsAll hgs)

end

mutual

/-- **An expression that is resolved has its leaves resolved**, in the same order. -/
theorem forall₂_leaves {ctx : Context} : ∀ {e e' : Expression} {log mid : CallLog},
    (e.resolve ctx).run log = ((e', .ok ()), mid) →
    List.Forall₂ (fun l l' => ∃ log mid, (l.resolve ctx).run log = ((l', .ok ()), mid)) e.leaves
      e'.leaves
  | .leaf l, e', log, mid, h => by
      rw [resolve_leaf] at h
      have hresult : (l.settle ctx (l.operand.source.evaluate.run log).1).2 = .ok () :=
        congrArg (·.1.2) h
      have hmid : (l.operand.source.evaluate.run log).2 = mid := congrArg Prod.snd h
      obtain rfl : Expression.leaf (l.settle ctx (l.operand.source.evaluate.run log).1).1 = e' :=
        congrArg (·.1.1) h
      rw [leaves, leaves]
      exact .cons ⟨log, mid, Prod.ext (Prod.ext rfl hresult) hmid⟩ .nil
  | .composite kind symbol es, e', log, mid, h => by
      obtain ⟨es', hes, rfl⟩ := resolve_composite_iff.mp h
      rw [leaves, leaves]
      exact forall₂_leavesAll hes

/-- Expressions that are resolved have their leaves resolved. -/
theorem forall₂_leavesAll {ctx : Context} : ∀ {es es' : List Expression} {log mid : CallLog},
    (resolveAll ctx es).run log = ((es', .ok ()), mid) →
    List.Forall₂ (fun l l' => ∃ log mid, (l.resolve ctx).run log = ((l', .ok ()), mid))
      (leavesAll es) (leavesAll es')
  | [], es', log, mid, h => by
      rw [resolveAll_nil] at h
      cases h
      exact .nil
  | e :: es, es', log, mid, h => by
      rcases resolveAll_cons_iff.mp h with ⟨_, _, _, _, hfault⟩ | ⟨e', rest, mid', he, hes, rfl⟩
      · cases hfault
      · rw [leavesAll, leavesAll]
        exact List.rel_append (forall₂_leaves he) (forall₂_leavesAll hes)

end

/-! ### Names -/

/-- A filter names the attributes that the leaves of its expression are written with. -/
lemma names_of_filter {e : Expression} {f : Filter} {log log' : CallLog}
    (h : e.filter.run.run log = (.ok f, log')) :
    f.names = e.leaves.map fun l => l.operand.filterName := by
  have hall : ∀ {ls : List Leaf} {fs : List Filter},
      List.Forall₂ (fun l a => ∃ fl log log', l.filter.run.run log = (.ok fl, log')
        ∧ fl.assertions = [a] ∧ a.attribute? = some l.operand.filterName) ls fs →
      fs.filterMap Filter.attribute? = ls.map fun l => l.operand.filterName := by
    intro ls fs hls
    induction hls with
    | nil => rfl
    | cons hl _ ih =>
        obtain ⟨fl, log, log', -, -, hname⟩ := hl
        rw [List.filterMap_cons_some hname, List.map_cons, ih]
  exact hall (forall₂_assertions h)

/-- **A resolved expression is written with the names that the schema has its attributes written
with**, from left to right. -/
theorem names_of_resolve {registry : Registry} {s : ObjectSchema} {strict : Bool}
    {e e' : Expression} {f : Filter} {log mid log' log'' : CallLog}
    (h : (e.resolve ⟨registry, some s, strict⟩).run log = ((e', .ok ()), mid))
    (hf : e'.filter.run.run log' = (.ok f, log'')) :
    f.names = e.leaves.map fun l => s.writtenName l.operand.name := by
  have hnames : List.Forall₂ (fun l l' => l'.operand.filterName = s.writtenName l.operand.name)
      e.leaves e'.leaves := (forall₂_leaves h).imp fun l l' ⟨_, _, hl⟩ => Leaf.filterName_resolve hl
  rw [names_of_filter hf, ← List.forall₂_eq_eq_eq, List.forall₂_map_left_iff,
    List.forall₂_map_right_iff]
  exact hnames.flip

end Expression

end DirectoryLens
