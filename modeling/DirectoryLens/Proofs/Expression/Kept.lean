/-
Expressions that resolution leaves as they are written.

* `ObjectSchema.storedText`, `ObjectSchema.Keeps`: what a text is stored as under a name, and the
  names and texts that a schema leaves as they are;
* `Operand.WrittenAs`: the name and the octets that a comparison is written with;
* `Leaf.resolve_ofText`: a comparison with a text is written with the directory name and the stored
  text, or refused when the text cannot be stored;
* `Expression.resolve_of_kept`: an expression whose leaves are kept is kept;
* `Expression.keeps_of_filter_eq`: comparisons with texts whose filter comes out as it was have
  been kept.
-/
import DirectoryLens.Proofs.Expression.Names

namespace DirectoryLens

variable {registry : Registry} {s : ObjectSchema} {name text : String} {comparator : Comparator}
  {bs : Octets}

/-! ### Stored texts -/

namespace ObjectSchema

/-- What a text is stored as under a name. -/
def storedText (s : ObjectSchema) (registry : Registry) (name text : String) :
    Except QueryError Octets :=
  match s.converterFor name with
  | none => .ok (Octets.ofText text)
  | some converter => RawValue.octets <$> registry.toDirectory converter (.string text)

/-- A schema leaves a name, and a text under it, as they are. -/
def Keeps (s : ObjectSchema) (registry : Registry) (name text : String) : Prop :=
  s.writtenName name = name ∧ s.storedText registry name text = .ok (Octets.ofText text)

/-- A name of which nothing is declared is left as it is, and so is every text under it. -/
lemma keeps_of_undeclared (hname : s.directoryName? name = none)
    (hconverter : s.converterFor name = none) : s.Keeps registry name text := by
  constructor
  · rw [writtenName, directoryName, hname, Option.getD_none, ite_self]
  · rw [storedText, hconverter]

end ObjectSchema

/-! ### Comparisons with texts -/

namespace Operand

/-- A comparison with an operand is written with a name and octets. -/
structure WrittenAs (o : Operand) (name : String) (bs : Octets) : Prop where
  name_eq : o.filterName = name
  flag_eq : o.flag = none
  octets_eq : o.octets = pure bs

/-- An operand that is not resolved is written with its own name and text. -/
lemma writtenAs_ofSource (name text : String) :
    (ofSource name (.literal (.string text))).WrittenAs name (Octets.ofText text) :=
  ⟨rfl, rfl, rfl⟩

/-- A text that a converter stores is converted, and tests no flag. -/
lemma convert_text {o : Operand} {converter : String} {raw : RawValue}
    (h : registry.toDirectory converter (.string text) = .ok raw) :
    o.convert registry (.string text) converter
      = ({ o with flag := none, converted := some raw }, .ok ()) := by
  obtain ⟨c, hget, hraw⟩ := bind_eq_ok.mp h
  rw [convert, hget]
  simp only [hraw]
  rfl

/-- A value that a converter does not store is refused. -/
lemma convert_of_error {o : Operand} {v : Value} {converter : String} {fault : QueryError}
    (h : registry.toDirectory converter v = .error fault) :
    (o.convert registry v converter).2 = .error fault := by
  rw [convert]
  rcases bind_eq_error.mp h with hget | ⟨c, hget, hstored⟩
  · rw [hget]
  · simp only [hget, hstored]

/-- A text is written with the directory name and what it is stored as. -/
lemma settle_text (h : s.storedText registry name text = .ok bs) :
    ∃ o, (ofSource name (.literal (.string text))).settle ⟨registry, some s, false⟩ (.string text)
        = (o, .ok ())
      ∧ o.WrittenAs (s.writtenName name) bs := by
  rw [ObjectSchema.storedText] at h
  cases hconverter : s.converterFor name with
  | none =>
      rw [hconverter] at h
      obtain rfl := Except.ok.inj h
      refine ⟨{ ofSource name (.literal (.string text)) with translated := s.directoryName name },
        ?_, ⟨rfl, rfl, rfl⟩⟩
      simp only [settle, translate, reset, ofSource, if_pos, hconverter]
      rfl
  | some converter =>
      rw [hconverter] at h
      obtain ⟨raw, hraw, rfl⟩ := map_eq_ok.mp h
      refine ⟨{ ofSource name (.literal (.string text)) with
          translated := s.directoryName name, converted := some raw }, ?_, ⟨rfl, rfl, rfl⟩⟩
      simp only [settle, translate, reset, ofSource, if_pos, hconverter]
      exact convert_text hraw

/-- A text that cannot be stored is refused. -/
lemma settle_text_of_error {fault : QueryError}
    (h : s.storedText registry name text = .error fault) :
    ((ofSource name (.literal (.string text))).settle ⟨registry, some s, false⟩
      (.string text)).2 = .error fault := by
  rw [ObjectSchema.storedText] at h
  cases hconverter : s.converterFor name with
  | none =>
      rw [hconverter] at h
      cases h
  | some converter =>
      rw [hconverter] at h
      simp only [settle, translate, reset, ofSource, if_pos, hconverter]
      exact convert_of_error (map_eq_error.mp h)

end Operand

namespace Leaf

/-- A comparison with a text. -/
def ofText (name : String) (comparator : Comparator) (text : String) : Leaf :=
  .compare name comparator (.literal (.string text))

/-- A comparison is written with what its operand is. -/
lemma filter_of_writtenAs {o : Operand} (h : o.WrittenAs name bs) :
    filter ⟨.compare comparator, o⟩ = (do
      let name ← Operand.octets.liftExcept
        (if Filter.isAttributeName name.toList then .ok name
          else .error (.querySyntax (.attributeName name)))
      return .item name comparator [bs]) := by
  obtain ⟨rfl, hflag, hoctets⟩ := h
  rw [filter]
  simp only [hflag, hoctets, pure_bind]
  rfl

/-- The filter of a comparison is an assertion on what its operand is written with. -/
lemma eq_item_of_writtenAs {o : Operand} {f : Filter} {log log' : CallLog}
    (h : o.WrittenAs name bs) (hf : (filter ⟨.compare comparator, o⟩).run.run log = (.ok f, log')) :
    f = .item name comparator [bs] := by
  rw [filter_of_writtenAs h] at hf
  obtain ⟨name', _, hname, hf⟩ := Writing.bind_eq_ok hf
  have hchecked := (Operand.liftExcept_eq_ok hname).1
  split at hchecked
  · obtain rfl := Except.ok.inj hchecked
    cases hf
    rfl
  · cases hchecked

/-- A comparison with a text is written with the directory name and the stored text. -/
lemma resolve_ofText (comparator : Comparator) (h : s.storedText registry name text = .ok bs) :
    ∃ o, (∀ log : CallLog, ((ofText name comparator text).resolve ⟨registry, some s, false⟩).run log
        = ((⟨.compare comparator, o⟩, .ok ()), log))
      ∧ o.WrittenAs (s.writtenName name) bs := by
  obtain ⟨o, hsettle, ho⟩ := Operand.settle_text h
  refine ⟨o, fun log => ?_, ho⟩
  have hleaf : (ofText name comparator text).settle ⟨registry, some s, false⟩ (.string text)
      = (⟨.compare comparator, o⟩, .ok ()) := by
    simp only [settle, ofText, compare, hsettle, checkFlag, ho.flag_eq]
  exact congrArg (·, log) hleaf

/-- A comparison that is resolved has had its text stored. -/
lemma exists_storedText_of_resolve {l : Leaf} {log mid : CallLog}
    (h : ((ofText name comparator text).resolve ⟨registry, some s, false⟩).run log
      = ((l, .ok ()), mid)) : ∃ bs, s.storedText registry name text = .ok bs := by
  cases hstored : s.storedText registry name text with
  | ok bs => exact ⟨bs, rfl⟩
  | error fault =>
      have hrefused := Operand.settle_text_of_error hstored
      have hsettle : (ofText name comparator text).settle ⟨registry, some s, false⟩ (.string text)
          = (l, .ok ()) := congrArg Prod.fst h
      rw [settle] at hsettle
      split at hsettle
      · rename_i o ho
        cases (congrArg Prod.snd ho).symm.trans hrefused
      · cases hsettle

/-- A leaf is resolved without calls, and written as before. -/
def Kept (ctx : Context) (l : Leaf) : Prop :=
  ∃ l', (∀ log : CallLog, (l.resolve ctx).run log = ((l', .ok ()), log)) ∧ l'.filter = l.filter

/-- A comparison with a text is kept when the schema keeps the name and the text. -/
lemma kept_ofText (h : s.Keeps registry name text) :
    (ofText name comparator text).Kept ⟨registry, some s, false⟩ := by
  obtain ⟨hname, hstored⟩ := h
  obtain ⟨o, hrun, ho⟩ := resolve_ofText comparator hstored
  refine ⟨⟨.compare comparator, o⟩, hrun, ?_⟩
  rw [hname] at ho
  rw [filter_of_writtenAs ho, ofText, compare,
    filter_of_writtenAs (Operand.writtenAs_ofSource name text)]

/-- A comparison with a text that is resolved, and then written with the same assertion, has been
kept. -/
lemma keeps_of_assertions_eq {l : Leaf} {f f' a : Filter} {log mid log₁ log₁' log₂ log₂' : CallLog}
    (h : ((ofText name comparator text).resolve ⟨registry, some s, false⟩).run log
      = ((l, .ok ()), mid))
    (hf : (ofText name comparator text).filter.run.run log₁ = (.ok f, log₁'))
    (hf' : l.filter.run.run log₂ = (.ok f', log₂'))
    (ha : f.assertions = [a]) (ha' : f'.assertions = [a]) : s.Keeps registry name text := by
  obtain ⟨bs, hstored⟩ := exists_storedText_of_resolve h
  obtain ⟨o, hrun, ho⟩ := resolve_ofText comparator hstored
  rw [hrun] at h
  cases h
  obtain rfl := eq_item_of_writtenAs (Operand.writtenAs_ofSource name text) hf
  obtain rfl := eq_item_of_writtenAs ho hf'
  rw [Filter.assertions] at ha ha'
  cases ha
  rw [List.singleton_inj, Filter.item.injEq, List.singleton_inj] at ha'
  obtain ⟨hname, -, rfl⟩ := ha'
  exact ⟨hname, hstored⟩

end Leaf

/-! ### Expressions -/

namespace Expression

/-- Expressions with the same filters have them together. -/
lemma filterAll_congr {es es' : List Expression}
    (h : List.Forall₂ (fun e e' => e'.filter = e.filter) es es') :
    filterAll es' = filterAll es := by
  induction h with
  | nil => rfl
  | cons he _ ih => rw [filterAll, filterAll, he, ih]

/-- A composite has the filter of another with the same connective whose children have the same
filters, and of several classes in whatever mark. -/
lemma filter_composite_congr {kind : Connective} {symbol symbol' : Symbol}
    {es es' : List Expression} (h : List.Forall₂ (fun e e' => e'.filter = e.filter) es es')
    (hsymbol : kind ≠ .classes → symbol' = symbol) :
    filter (.composite kind symbol' es') = filter (.composite kind symbol es) := by
  cases h with
  | nil => rw [filter, filter]
  | @cons e e' es es' he hes =>
      cases kind with
      | classes =>
          cases hes with
          | nil => rw [filter, filter, he]
          | cons he₂ hes =>
              rw [filter, filter, filterAll_congr (.cons he (.cons he₂ hes))] <;> simp
      | and | or | not =>
          rw [hsymbol (by simp), filter, filter, filterAll_congr (.cons he hes)] <;> simp

mutual

/-- **An expression whose leaves are kept is kept.** -/
theorem resolve_of_kept {ctx : Context} : ∀ {e : Expression}, (∀ l ∈ e.leaves, l.Kept ctx) →
    ∃ e', (∀ log : CallLog, (e.resolve ctx).run log = ((e', .ok ()), log)) ∧ e'.filter = e.filter
  | .leaf l, h => by
      rw [leaves, List.forall_mem_singleton] at h
      obtain ⟨l', hl, hfilter⟩ := h
      refine ⟨.leaf l', fun log => ?_, by rw [filter, filter, hfilter]⟩
      rw [resolve, StateT.run_bind, hl]
      rfl
  | .composite kind symbol es, h => by
      rw [leaves] at h
      obtain ⟨es', hes, hfilters⟩ := resolveAll_of_kept h
      refine ⟨.composite kind (Composite.settledSymbol kind symbol es'.length) es',
        fun log => resolve_composite_iff.mpr ⟨es', hes log, rfl⟩,
        filter_composite_congr hfilters fun hkind => ?_⟩
      rw [Composite.settledSymbol, if_neg fun hsettled => hkind hsettled.1]

/-- Expressions whose leaves are kept are kept. -/
theorem resolveAll_of_kept {ctx : Context} : ∀ {es : List Expression},
    (∀ l ∈ leavesAll es, l.Kept ctx) →
    ∃ es', (∀ log : CallLog, (resolveAll ctx es).run log = ((es', .ok ()), log))
      ∧ List.Forall₂ (fun e e' => e'.filter = e.filter) es es'
  | [], _ => ⟨[], resolveAll_nil ctx, .nil⟩
  | e :: es, h => by
      rw [leavesAll, List.forall_mem_append] at h
      obtain ⟨e', he, hfilter⟩ := resolve_of_kept h.1
      obtain ⟨es', hes, hfilters⟩ := resolveAll_of_kept h.2
      exact ⟨e' :: es', fun log => resolveAll_cons_iff.mpr
        (.inr ⟨e', es', log, he log, hes log, rfl⟩), .cons hfilter hfilters⟩

end

/-- **Comparisons with texts whose filter comes out as it was have been kept.** -/
theorem keeps_of_filter_eq {e e' : Expression} {f : Filter}
    {log mid log₁ log₁' log₂ log₂' : CallLog}
    (h : (e.resolve ⟨registry, some s, false⟩).run log = ((e', .ok ()), mid))
    (hf : e.filter.run.run log₁ = (.ok f, log₁')) (hf' : e'.filter.run.run log₂ = (.ok f, log₂'))
    (hmem : Leaf.ofText name comparator text ∈ e.leaves) : s.Keeps registry name text := by
  obtain ⟨l', a, ⟨_, _, hl⟩, ⟨_, _, _, hfilter', ha', -⟩, ⟨_, _, _, hfilter, ha, -⟩⟩ :=
    exists_of_forall₂ (forall₂_leaves h) (forall₂_assertions hf') (forall₂_assertions hf) _ hmem
  exact Leaf.keeps_of_assertions_eq hl hfilter hfilter' ha ha'

end Expression

end DirectoryLens
