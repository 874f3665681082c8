/-
Expressions whose attributes are spelled in another case.

* `QueryError.SameCode`: two errors that differ at most in their words;
* `Leaf.Respelled`: a leaf with its attribute in another case, where the schema maps it;
* `Operand.settle_respelled`: an operand is resolved as it is in the other spelling;
* `Leaf.filter_respelled`: a leaf that is resolved is written as it is in the other spelling;
* `resolve_respelled`: an expression is resolved as it is in the other spelling, up to the words of
  an error.
-/
import DirectoryLens.Proofs.Expression.Kept
import DirectoryLens.Proofs.Expression.Leafwise
import DirectoryLens.Proofs.Schema.Lookup
import DirectoryLens.Proofs.Text.Spelling

namespace DirectoryLens

open Text

/-- Two errors that differ at most in their words. -/
def QueryError.SameCode (fault fault' : QueryError) : Prop :=
  fault.code = fault'.code

/-- An error has its own code. -/
lemma QueryError.SameCode.refl (fault : QueryError) : fault.SameCode fault :=
  rfl

/-- A leaf with the ASCII letters of its attribute in another case, where the schema maps it to a
directory name that is not empty. -/
inductive Leaf.Respelled (s : ObjectSchema) (l : Leaf) : Leaf → Prop
  | same : Respelled s l l
  | name {name d : String} : CaseAlike l.operand.name name →
      s.directoryName? l.operand.name = some d → d ≠ "" →
      Respelled s l { l with operand := { l.operand with name } }

variable {ctx : Context} {s : ObjectSchema} {name d : String}

/-- An operand is converted whatever its attribute is, and keeps its translation. -/
lemma Operand.convert_name (registry : Registry) (o : Operand) (v : Value)
    (name converter : String) :
    ({ o with name } : Operand).convert registry v converter
        = ({ (o.convert registry v converter).1 with name }, (o.convert registry v converter).2)
      ∧ (o.convert registry v converter).1.translated = o.translated := by
  rw [Operand.convert, Operand.convert]
  cases registry.get converter with
  | error fault => exact ⟨rfl, rfl⟩
  | ok c =>
      simp only
      cases c.toDirectory v with
      | error fault => exact ⟨rfl, rfl⟩
      | ok raw => exact ⟨rfl, rfl⟩

/-- An operand whose attribute is mapped is translated, and converted if there is a converter. -/
lemma Operand.settle_of_directoryName? {o : Operand} (hctx : ctx.schema = some s)
    (hd : s.directoryName? o.name = some d) (v : Value) :
    o.settle ctx v =
      match if o.convertible then s.converterFor o.name else none with
      | none => ({ o.reset v with translated := d }, .ok ())
      | some converter =>
        ({ o.reset v with translated := d } : Operand).convert ctx.registry v converter := by
  have hmapped : (if ctx.strict then s.mappedName (o.reset v).name
      else .ok (s.directoryName (o.reset v).name)) = .ok d := by
    rw [Operand.reset, ObjectSchema.mappedName, ObjectSchema.directoryName, hd]
    exact ite_self _
  rw [Operand.settle, hctx]
  show (o.reset v).translate ctx.registry s ctx.strict v = _
  rw [Operand.translate, hmapped]
  rfl

/-- An operand is resolved as it is in another spelling of its attribute, which is translated. -/
lemma Operand.settle_respelled {o : Operand} (hctx : ctx.schema = some s)
    (hname : CaseAlike o.name name) (hd : s.directoryName? o.name = some d) (v : Value) :
    ({ o with name } : Operand).settle ctx v
        = ({ (o.settle ctx v).1 with name }, (o.settle ctx v).2)
      ∧ (o.settle ctx v).1.translated = d := by
  have hd' : s.directoryName? ({ o with name } : Operand).name = some d :=
    (ObjectSchema.directoryName?_congr hname.fold_eq s).symm.trans hd
  have hconverter : s.converterFor ({ o with name } : Operand).name = s.converterFor o.name :=
    (ObjectSchema.converterFor_congr hname.fold_eq s).symm
  rw [Operand.settle_of_directoryName? hctx hd, Operand.settle_of_directoryName? hctx hd',
    hconverter]
  cases if o.convertible then s.converterFor o.name else none with
  | none => exact ⟨rfl, rfl⟩
  | some converter =>
      exact Operand.convert_name ctx.registry { o.reset v with translated := d } v name converter

/-- A leaf whose attribute is translated is written as it is in another spelling of that. -/
lemma Leaf.filter_respelled {l : Leaf} (h : l.operand.translated ≠ "") (name : String) :
    ({ l with operand := { l.operand with name } } : Leaf).filter = l.filter := by
  obtain ⟨test, o⟩ := l
  have hname : ({ o with name } : Operand).filterName = o.filterName := by
    simp only [Operand.filterName, String.isEmpty_iff, h, if_false]
  have hchecked : ({ o with name } : Operand).checkedName = o.checkedName := by
    rw [Operand.checkedName, Operand.checkedName, hname]
  rw [Leaf.filter, Leaf.filter, hchecked]
  rfl

/-- A flag is refused as it is in another spelling of its attribute, up to the words of the
error. -/
lemma Leaf.checkFlag_respelled (l : Leaf) (name : String) :
    ExceptRel (fun _ _ => True) QueryError.SameCode
      l.checkFlag ({ l with operand := { l.operand with name } } : Leaf).checkFlag := by
  rw [Leaf.checkFlag, Leaf.checkFlag]
  cases l.operand.flag with
  | none => exact .ok trivial
  | some flag =>
      cases l.test.flagless? with
      | none => exact .ok trivial
      | some test => exact .error rfl

/-- A leaf is resolved as it is in another spelling of its attribute, up to the words of an error,
and is then written in the same way. -/
lemma Leaf.Respelled.settle {l l' : Leaf} (h : l.Respelled s l') (hctx : ctx.schema = some s)
    (v : Value) :
    ExceptRel (fun _ _ => True) QueryError.SameCode
        (l.settle ctx v).2 (l'.settle ctx v).2
      ∧ ((l.settle ctx v).2 = .ok () → (l'.settle ctx v).1.filter = (l.settle ctx v).1.filter) := by
  cases h with
  | same => exact ⟨.refl (fun _ => trivial) .refl _, fun _ => rfl⟩
  | @name name d hname hd hne =>
      obtain ⟨hsettle, htranslated⟩ := Operand.settle_respelled hctx hname hd v
      rw [Leaf.settle, Leaf.settle, hsettle]
      cases hrun : l.operand.settle ctx v with
      | mk o result =>
          rw [hrun] at htranslated
          have hfilter := Leaf.filter_respelled (l := { l with operand := o })
            (ne_of_eq_of_ne htranslated hne) name
          cases result with
          | error fault => exact ⟨.error rfl, fun h => by cases h⟩
          | ok => exact ⟨Leaf.checkFlag_respelled { l with operand := o } name, fun _ => hfilter⟩

namespace Expression

mutual

/-- **An expression is resolved as it is in other spellings of its attributes**, up to the words of
an error: with the same calls, and into what is written in the same way. -/
theorem resolve_respelled (hctx : ctx.schema = some s) : ∀ {e e' : Expression},
    Leafwise (Leaf.Respelled s) e e' → ∀ log : CallLog,
    ((e'.resolve ctx).run log).2 = ((e.resolve ctx).run log).2
      ∧ ExceptRel (fun _ _ => True) QueryError.SameCode
        ((e.resolve ctx).run log).1.2 ((e'.resolve ctx).run log).1.2
      ∧ (((e.resolve ctx).run log).1.2 = .ok () →
        ((e'.resolve ctx).run log).1.1.filter = ((e.resolve ctx).run log).1.1.filter)
  | .leaf l, _, h, log => by
      cases h with
      | @leaf _ l' h =>
          have hsource : l'.operand.source = l.operand.source := by
            cases h <;> rfl
          rw [resolve_leaf, resolve_leaf, hsource]
          obtain ⟨hresult, hfilter⟩ := h.settle hctx (l.operand.source.evaluate.run log).1
          refine ⟨rfl, hresult, fun hok => ?_⟩
          rw [filter, filter]
          exact hfilter hok
  | .composite kind symbol es, _, h, log => by
      cases h with
      | @composite _ _ _ es' h =>
          obtain ⟨hlog, hresult, hfilters⟩ := resolveAll_respelled hctx h log
          rw [resolve_composite, resolve_composite]
          refine ⟨hlog, hresult, fun hok => ?_⟩
          refine filter_composite_congr (hfilters hok) fun hkind => ?_
          have hsettled : ∀ size, Composite.settledSymbol kind symbol size = symbol :=
            fun _ => if_neg fun hclasses => hkind hclasses.1
          simp only [hsettled, ite_self]

/-- Expressions are resolved as they are in other spellings of their attributes, up to the words of
an error. -/
theorem resolveAll_respelled (hctx : ctx.schema = some s) : ∀ {es es' : List Expression},
    List.Forall₂ (Leafwise (Leaf.Respelled s)) es es' → ∀ log : CallLog,
    ((resolveAll ctx es').run log).2 = ((resolveAll ctx es).run log).2
      ∧ ExceptRel (fun _ _ => True) QueryError.SameCode
        ((resolveAll ctx es).run log).1.2 ((resolveAll ctx es').run log).1.2
      ∧ (((resolveAll ctx es).run log).1.2 = .ok () →
        List.Forall₂ (fun e e' => e'.filter = e.filter) ((resolveAll ctx es).run log).1.1
          ((resolveAll ctx es').run log).1.1)
  | [], _, h, log => by
      obtain rfl := List.forall₂_nil_left_iff.mp h
      rw [resolveAll_nil]
      exact ⟨rfl, .ok trivial, fun _ => .nil⟩
  | e :: es, _, h, log => by
      obtain ⟨e', es', he, hes, rfl⟩ := List.forall₂_cons_left_iff.mp h
      obtain ⟨hlog, hresult, hfilter⟩ := resolve_respelled hctx he log
      rw [resolveAll_cons, resolveAll_cons]
      cases hrun : (e.resolve ctx).run log with
      | mk p mid =>
          cases hrun' : (e'.resolve ctx).run log with
          | mk p' mid' =>
              obtain ⟨e₁, r⟩ := p
              obtain ⟨e₁', r'⟩ := p'
              rw [hrun, hrun'] at hlog hresult hfilter
              obtain rfl : mid' = mid := hlog
              cases hresult with
              | error hcode => exact ⟨rfl, .error hcode, nofun⟩
              | ok =>
                  obtain ⟨hlogs, hresults, hfilters⟩ := resolveAll_respelled hctx hes mid'
                  exact ⟨hlogs, hresults, fun hok => .cons (hfilter rfl) (hfilters hok)⟩

end

end Expression

end DirectoryLens
