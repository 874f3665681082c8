/-
Resolution that refuses the attributes that a schema does not map.

* `Leaf.Mapped`, `Leaf.unmapped`: the schema maps the attribute of a leaf, and why a leaf is
  refused else;
* `Expression.firstUnmapped?`: the first leaf whose attribute is not mapped;
* `Leaf.settle_of_mapped`, `Leaf.settle_of_not_mapped`: strictness refuses such a leaf, and does
  nothing to another;
* `Expression.resolve_congr`: an expression is resolved as its leaves are;
* `Expression.resolve_of_mapped`: where every attribute is mapped, strictness makes no difference;
* `Expression.resolve_of_firstUnmapped`: else a strict resolution ends at the first leaf that is
  not mapped, unless one before it is refused however strict the resolution is;
* `Expression.mapped_of_resolve`: one that succeeds has met mapped attributes only.
-/
import DirectoryLens.Proofs.Expression.Asking

namespace DirectoryLens

variable {registry : Registry} {s : ObjectSchema}

/-! ### Operands -/

namespace Operand

/-- An operand whose attribute is mapped is translated alike, strictly or not. -/
lemma translate_of_mapped {o : Operand} (h : s.hasAttribute o.name = true) (v : Value) :
    o.translate registry s true v = o.translate registry s false v := by
  obtain ⟨d, hd⟩ := Option.isSome_iff_exists.mp h
  have htranslated : (if true then s.mappedName o.name else .ok (s.directoryName o.name))
      = if false then s.mappedName o.name else .ok (s.directoryName o.name) := by
    simp [ObjectSchema.mappedName, ObjectSchema.directoryName, hd]
  rw [translate, translate, htranslated]

/-- An operand whose attribute is not mapped is refused by a strict translation. -/
lemma translate_of_not_mapped {o : Operand} (h : s.hasAttribute o.name = false) (v : Value) :
    o.translate registry s true v = (o, .error (.unmappedAttribute o.name s.id)) := by
  have hd : s.directoryName? o.name = none := Option.isNone_iff_eq_none.mp (by
    rwa [← Option.not_isSome, Bool.not_eq_true'])
  have hmapped : s.mappedName o.name = .error (.unmappedAttribute o.name s.id) := by
    rw [ObjectSchema.mappedName, hd]
  rw [translate, if_pos rfl, hmapped]

end Operand

/-! ### Leaves -/

namespace Leaf

/-- The schema maps the attribute of a leaf. -/
def Mapped (s : ObjectSchema) (l : Leaf) : Prop :=
  s.hasAttribute l.operand.name = true

instance (s : ObjectSchema) (l : Leaf) : Decidable (l.Mapped s) :=
  inferInstanceAs (Decidable (_ = true))

/-- The refusal of a leaf whose attribute the schema does not map. -/
def unmapped (s : ObjectSchema) (l : Leaf) : QueryError :=
  .unmappedAttribute l.operand.name s.id

/-- A leaf whose attribute is mapped is resolved alike, strictly or not. -/
lemma settle_of_mapped {l : Leaf} (h : l.Mapped s) (v : Value) :
    l.settle ⟨registry, some s, true⟩ v = l.settle ⟨registry, some s, false⟩ v := by
  have hname : s.hasAttribute (l.operand.reset v).name = true := h
  rw [settle, settle, Operand.settle, Operand.settle]
  simp only [Operand.translate_of_mapped hname]

/-- A leaf whose attribute is not mapped is refused by a strict resolution. -/
lemma settle_of_not_mapped {l : Leaf} (h : ¬ l.Mapped s) (v : Value) :
    (l.settle ⟨registry, some s, true⟩ v).2 = .error (l.unmapped s) := by
  have hname : s.hasAttribute (l.operand.reset v).name = false := Bool.eq_false_of_not_eq_true h
  rw [settle, Operand.settle]
  simp only [Operand.translate_of_not_mapped hname]
  rfl

end Leaf

/-! ### Expressions -/

namespace Expression

/-- The first leaf of an expression whose attribute the schema does not map. -/
def firstUnmapped? (s : ObjectSchema) (e : Expression) : Option Leaf :=
  e.leaves.find? fun l => ¬ l.Mapped s

mutual

/-- An expression is resolved alike under contexts that resolve each of its leaves alike. -/
theorem resolve_congr {ctx ctx' : Context} : ∀ {e : Expression},
    (∀ l ∈ e.leaves, ∀ v, l.settle ctx v = l.settle ctx' v) → ∀ log : CallLog,
    (e.resolve ctx).run log = (e.resolve ctx').run log
  | .leaf l, h, log => by
      rw [leaves, List.forall_mem_singleton] at h
      rw [resolve_leaf, resolve_leaf]
      simp only [h]
  | .composite kind symbol es, h, log => by
      rw [leaves] at h
      rw [resolve_composite, resolve_composite, resolveAll_congr h]

/-- Expressions are resolved alike under contexts that resolve each of their leaves alike. -/
theorem resolveAll_congr {ctx ctx' : Context} : ∀ {es : List Expression},
    (∀ l ∈ leavesAll es, ∀ v, l.settle ctx v = l.settle ctx' v) → ∀ log : CallLog,
    (resolveAll ctx es).run log = (resolveAll ctx' es).run log
  | [], _, log => by simp
  | e :: es, h, log => by
      rw [leavesAll, List.forall_mem_append] at h
      rw [resolveAll_cons, resolveAll_cons, resolve_congr h.1]
      simp only [resolveAll_congr h.2]

end

/-- **Where every attribute is mapped, strictness makes no difference.** -/
theorem resolve_of_mapped {e : Expression} (h : ∀ l ∈ e.leaves, l.Mapped s) (log : CallLog) :
    (e.resolve ⟨registry, some s, true⟩).run log
      = (e.resolve ⟨registry, some s, false⟩).run log :=
  resolve_congr (fun l hl => Leaf.settle_of_mapped (h l hl)) log

/-- Several expressions fail as the first of them does. -/
lemma resolveAll_cons_of_error {ctx : Context} {e : Expression} {es : List Expression}
    {log : CallLog} {fault : QueryError} (h : ((resolve ctx e).run log).1.2 = .error fault) :
    ((resolveAll ctx (e :: es)).run log).1.2 = .error fault := by
  rw [resolveAll_cons]
  revert h
  cases (resolve ctx e).run log with
  | mk head mid =>
      obtain ⟨e', result⟩ := head
      rintro ⟨⟩
      rfl

/-- A strict run is refused for a leaf, unless the run that is not strict is refused alike. -/
def RefusedFor {α : Type} (s : ObjectSchema) (l : Leaf)
    (strict lenient : (α × Except QueryError Unit) × CallLog) : Prop :=
  strict.1.2 = .error (l.unmapped s)
    ∨ ∃ fault, strict.1.2 = .error fault ∧ lenient.1.2 = .error fault

mutual

/-- **A strict resolution ends at the first leaf that is not mapped**, unless one before it is
refused however strict the resolution is. -/
theorem resolve_of_firstUnmapped (registry : Registry) {l : Leaf} : ∀ {e : Expression},
    e.firstUnmapped? s = some l → ∀ log : CallLog,
    RefusedFor s l ((e.resolve ⟨registry, some s, true⟩).run log)
      ((e.resolve ⟨registry, some s, false⟩).run log)
  | .leaf l', h, log => by
      rw [firstUnmapped?, leaves, List.find?_singleton] at h
      split at h
      · rename_i hmapped
        obtain rfl := Option.some.inj h
        rw [resolve_leaf]
        exact .inl (Leaf.settle_of_not_mapped (of_decide_eq_true hmapped) _)
      · cases h
  | .composite kind symbol es, h, log => by
      rw [firstUnmapped?, leaves] at h
      rw [resolve_composite, resolve_composite]
      exact resolveAll_of_firstUnmapped registry h log

/-- A strict resolution of several expressions ends at the first of their leaves that is not
mapped. -/
theorem resolveAll_of_firstUnmapped (registry : Registry) {l : Leaf} : ∀ {es : List Expression},
    ((leavesAll es).find? fun l => ¬ l.Mapped s) = some l → ∀ log : CallLog,
    RefusedFor s l ((resolveAll ⟨registry, some s, true⟩ es).run log)
      ((resolveAll ⟨registry, some s, false⟩ es).run log)
  | [], h, _ => by cases h
  | e :: es, h, log => by
      rw [leavesAll, List.find?_append] at h
      cases hfirst : e.firstUnmapped? s with
      | some l' =>
          rw [← firstUnmapped?, hfirst] at h
          obtain rfl := Option.some.inj h
          rcases resolve_of_firstUnmapped registry hfirst log with
            hstrict | ⟨fault, hstrict, hlenient⟩
          · exact .inl (resolveAll_cons_of_error hstrict)
          · exact .inr ⟨fault, resolveAll_cons_of_error hstrict,
              resolveAll_cons_of_error hlenient⟩
      | none =>
          rw [← firstUnmapped?, hfirst, Option.none_or] at h
          have hmapped : ∀ l ∈ e.leaves, l.Mapped s := by
            simpa [firstUnmapped?] using hfirst
          rw [resolveAll_cons, resolveAll_cons, resolve_of_mapped hmapped]
          cases (resolve ⟨registry, some s, false⟩ e).run log with
          | mk head mid =>
              obtain ⟨e', result⟩ := head
              cases result with
              | error fault => exact .inr ⟨fault, rfl, rfl⟩
              | ok => exact resolveAll_of_firstUnmapped registry h mid

end

/-- **A strict resolution that succeeds has met mapped attributes only.** -/
theorem mapped_of_resolve {e e' : Expression} {log mid : CallLog}
    (h : (e.resolve ⟨registry, some s, true⟩).run log = ((e', .ok ()), mid)) :
    ∀ l ∈ e.leaves, l.Mapped s := by
  cases hfirst : e.firstUnmapped? s with
  | none => simpa [firstUnmapped?] using hfirst
  | some l =>
      rcases resolve_of_firstUnmapped registry hfirst log with
        hstrict | ⟨_, hstrict, -⟩ <;>
      · rw [h] at hstrict
        cases hstrict

end Expression

end DirectoryLens
