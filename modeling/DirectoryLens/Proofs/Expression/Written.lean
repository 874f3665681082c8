/-
What expressions with values given at once are written with.

* `Context.writtenName`, `Context.stored`: the name that an attribute is written with, and what a
  value is stored as under it;
* `Context.Writes`: an attribute and a value can be written, and no flag is asked for;
* `Expression.HasFilter`, `Expression.HasText`: the filters and texts that an expression has when it
  is resolved;
* `hasFilter_leaf_iff`, `hasFilter_present`: a leaf that puts no test to a flag has a filter just
  when its attribute and value can be written, whatever the test;
* `hasFilter_composite_iff`: a composite has the filters of its children under its mark;
* `Expression.ReadsAs`: what a reader of filters makes of the texts of an expression;
* `readsAs_of_hasFilter`: the text of a built expression reads back as its filter.
-/
import DirectoryLens.Proofs.Expression.Kept
import DirectoryLens.Proofs.Search.Failure

namespace DirectoryLens

variable {ctx : Context} {name : String} {v : Value} {o : Operand} {raw : RawValue} {f : Filter}

/-- What succeeds does so under a function. -/
lemma Writing.run_map_of_ok {α β : Type} {m : Writing α} {log mid : CallLog} {a : α}
    (h : m.run.run log = (.ok a, mid)) (g : α → β) : (g <$> m).run.run log = (.ok (g a), mid) := by
  rw [map_eq_pure_bind, run_bind_of_ok h]
  rfl

/-! ### Names and values -/

namespace Context

/-- The name that an attribute is written with. -/
def writtenName (ctx : Context) (name : String) : String :=
  match ctx.schema with
  | none => name
  | some s => s.writtenName name

/-- The converter that is declared for the values of an attribute. -/
def converterFor (ctx : Context) (name : String) : Option String :=
  ctx.schema.bind (·.converterFor name)

/-- What a value of an attribute is stored as. -/
def stored (ctx : Context) (name : String) (v : Value) : Except QueryError RawValue :=
  match ctx.converterFor name with
  | none => v.toRaw
  | some converter => ctx.registry.toDirectory converter v

/-- An attribute and a value can be written: the attribute with a name that attributes may have, and
the value as what it is stored as. No flag is asked for in its place. -/
structure Writes (ctx : Context) (name : String) (v : Value) (raw : RawValue) : Prop where
  settled : ∃ o, (Operand.ofSource name (.literal v)).settle ctx v = (o, .ok ()) ∧ o.flag = none
  named : Filter.isAttributeName (ctx.writtenName name).toList
  stored_eq : ctx.stored name v = .ok raw

end Context

namespace Operand

/-- An operand that is resolved is written with the name of its attribute. -/
lemma filterName_of_settle {o' : Operand} (h : o.settle ctx v = (o', .ok ())) :
    o'.filterName = ctx.writtenName o.name := by
  obtain ⟨registry, schema, strict⟩ := ctx
  cases schema with
  | none =>
      cases h
      rfl
  | some s => exact filterName_settle h

/-- A converted value is written as it is. -/
lemma octets_of_converted (h : o.converted = some raw) : o.octets = pure raw.octets := by
  rw [octets, h]

/-- A value that is not converted is written as its own stored form. -/
lemma octets_of_literal (hconverted : o.converted = none) (hsource : o.source = .literal v) :
    o.octets = octets.liftExcept (RawValue.octets <$> v.toRaw) := by
  have hstored : o.octets = octets.liftExcept v.toRaw >>= fun raw => pure raw.octets := by
    rw [octets, hconverted, hsource]
    rfl
  rw [hstored]
  cases v.toRaw with
  | ok raw => rfl
  | error fault => rfl

/-- A value that is converted is kept as what the converter stores it as. -/
lemma converted_of_convert {registry : Registry} {converter : String} {o' : Operand}
    (h : o.convert registry v converter = (o', .ok ())) :
    ∃ raw, registry.toDirectory converter v = .ok raw ∧ o'.converted = some raw := by
  rw [convert] at h
  split at h
  · cases h
  · rename_i c hget
    dsimp only at h
    split at h
    · cases h
    · rename_i raw hraw
      cases h
      exact ⟨raw, bind_eq_ok.mpr ⟨c, hget, hraw⟩, rfl⟩

/-- An operand that is resolved is written with what its value is stored as. -/
lemma octets_of_settle (h : (ofSource name (.literal v)).settle ctx v = (o, .ok ())) :
    o.octets = octets.liftExcept (RawValue.octets <$> ctx.stored name v) := by
  obtain ⟨registry, schema, strict⟩ := ctx
  cases schema with
  | none =>
      cases h
      exact octets_of_literal rfl rfl
  | some s =>
      simp only [settle, translate, reset, ofSource, if_pos] at h
      rw [Context.stored, Context.converterFor, Option.bind_some]
      split at h
      · cases h
      · cases hconverter : s.converterFor name with
        | none =>
            rw [hconverter] at h
            cases h
            exact octets_of_literal rfl rfl
        | some converter =>
            rw [hconverter] at h
            obtain ⟨raw, hstored, hconverted⟩ := converted_of_convert h
            rw [octets_of_converted hconverted]
            show pure raw.octets
              = octets.liftExcept (RawValue.octets <$> registry.toDirectory converter v)
            rw [hstored]
            rfl

/-- A name can be put to the test of presence when it can be put to one of a value. -/
lemma exists_settle_bare (h : (ofSource name (.literal v)).settle ctx v = (o, .ok ())) :
    ∃ o', (bare name).settle ctx .null = (o', .ok ()) := by
  obtain ⟨registry, schema, strict⟩ := ctx
  cases schema with
  | none => exact ⟨_, rfl⟩
  | some s =>
      simp only [settle, translate, reset, ofSource, bare] at h ⊢
      split at h
      · cases h
      · exact ⟨_, rfl⟩

/-- The test of presence asks for no flag. -/
lemma flag_of_settle_bare (h : (bare name).settle ctx v = (o, .ok ())) : o.flag = none := by
  obtain ⟨registry, schema, strict⟩ := ctx
  cases schema with
  | none =>
      cases h
      rfl
  | some s =>
      simp only [settle, translate, reset, bare] at h
      split at h
      · cases h
      · cases h
        rfl

end Operand

/-! ### Leaves -/

/-- What a test asserts of an attribute, by the octets that it is written with. -/
def LeafTest.assertion (test : LeafTest) (name : String) (bs : Octets) : Filter :=
  match test with
  | .compare comparator => .item name comparator [bs]
  | .wildcard placement => .item name .equal (placement.pieces bs)
  | .rule id => .extensible name id bs

namespace Leaf

/-- A leaf is resolved when its operand is, and no flag is put to a test that it cannot be put
to. -/
lemma settle_eq_ok_iff {l l' : Leaf} : l.settle ctx v = (l', .ok ()) ↔
    ∃ o, l.operand.settle ctx v = (o, .ok ()) ∧ (o.flag = none ∨ l.test.flagless? = none)
      ∧ l' = ⟨l.test, o⟩ := by
  have hcheck : ∀ o : Operand, checkFlag ⟨l.test, o⟩ = .ok ()
      ↔ o.flag = none ∨ l.test.flagless? = none := by
    intro o
    cases hflag : o.flag <;> cases htest : l.test.flagless? <;> simp [checkFlag, hflag, htest]
  rw [settle]
  split
  · rename_i o ho
    rw [ho, Prod.mk.injEq, hcheck]
    constructor
    · rintro ⟨rfl, hflag⟩
      exact ⟨o, rfl, hflag, rfl⟩
    · rintro ⟨_, heq, hflag, rfl⟩
      obtain rfl := (Prod.mk.inj heq).1
      exact ⟨rfl, hflag⟩
  · rename_i o fault ho
    rw [ho]
    constructor
    · intro heq
      cases heq
    · rintro ⟨_, heq, -⟩
      cases heq

/-- A leaf with a value, and without a flag, is written as what its test asserts. -/
lemma filter_of_flag_eq_none (test : LeafTest) (htest : test ≠ .wildcard .present)
    (hflag : o.flag = none) : filter ⟨test, o⟩ = (do
      let name ← Operand.octets.liftExcept o.checkedName
      test.assertion name <$> o.octets) := by
  rw [filter]
  cases test with
  | compare | rule =>
      simp only [hflag, map_eq_pure_bind]
      rfl
  | wildcard placement =>
      cases placement with
      | present => exact absurd rfl htest
      | contains | startsWith | endsWith | like =>
          simp only [map_eq_pure_bind]
          rfl

/-- A leaf is written as what its test asserts just when its name may be one and its octets are
had. -/
lemma exists_filter_iff (test : LeafTest) (htest : test ≠ .wildcard .present)
    (hflag : o.flag = none) {r : Except QueryError Octets}
    (hoctets : o.octets = Operand.octets.liftExcept r) :
    (∃ log log' : CallLog, (filter ⟨test, o⟩).run.run log = (.ok f, log')) ↔
      Filter.isAttributeName o.filterName.toList ∧ ∃ bs, r = .ok bs
        ∧ f = test.assertion o.filterName bs := by
  rw [filter_of_flag_eq_none test htest hflag, hoctets, Operand.checkedName]
  constructor
  · rintro ⟨log, log', h⟩
    obtain ⟨_, _, hname, hrest⟩ := Writing.bind_eq_ok h
    obtain ⟨bs, hbs, rfl⟩ := Writing.map_eq_ok hrest
    have hchecked := (Operand.liftExcept_eq_ok hname).1
    split at hchecked
    · rename_i hvalid
      obtain rfl := Except.ok.inj hchecked
      exact ⟨hvalid, bs, (Operand.liftExcept_eq_ok hbs).1, rfl⟩
    · cases hchecked
  · rintro ⟨hvalid, bs, rfl, rfl⟩
    rw [if_pos hvalid]
    exact ⟨[], [], rfl⟩

end Leaf

/-! ### Filters and texts -/

namespace Expression

/-- An expression is resolved, and then has a filter. -/
def HasFilter (ctx : Context) (e : Expression) (f : Filter) : Prop :=
  ∃ (e' : Expression) (log mid log' log'' : CallLog),
    (e.resolve ctx).run log = ((e', .ok ()), mid) ∧ e'.filter.run.run log' = (.ok f, log'')

/-- An expression is resolved, and then has a text. -/
def HasText (ctx : Context) (e : Expression) (t : String) : Prop :=
  ∃ (e' : Expression) (log mid log' log'' : CallLog),
    (e.resolve ctx).run log = ((e', .ok ()), mid) ∧ e'.text.run.run log' = (.ok t, log'')

/-- An expression has a text, and a reader of filters takes every text that it has for a filter. -/
def ReadsAs (ctx : Context) (e : Expression) (f : Filter) : Prop :=
  (∃ t, e.HasText ctx t) ∧ ∀ t, e.HasText ctx t → Filter.read t = some f

variable {e : Expression} {t : String}

/-- The text that comes of a run is one. -/
lemma hasText_of_run (hresolve : ((e.resolve ctx).run []).1.2 = .ok ())
    (htext : (((e.resolve ctx).run []).1.1.text.run.run []).1 = .ok t) : e.HasText ctx t :=
  ⟨((e.resolve ctx).run []).1.1, [], _, [], _, Prod.ext (Prod.ext rfl hresolve) rfl,
    Prod.ext htext rfl⟩

/-- The texts of an expression are those of its filters. -/
lemma hasText_iff : e.HasText ctx t ↔ ∃ f, e.HasFilter ctx f ∧ f.render = t := by
  constructor
  · rintro ⟨e', log, mid, log', log'', hresolve, htext⟩
    obtain ⟨f, hf, rfl⟩ := Writing.map_eq_ok htext
    exact ⟨f, ⟨e', log, mid, log', log'', hresolve, hf⟩, rfl⟩
  · rintro ⟨f, ⟨e', log, mid, log', log'', hresolve, hf⟩, rfl⟩
    exact ⟨e', log, mid, log', log'', hresolve, Writing.run_map_of_ok hf Filter.render⟩

/-- A built expression has filters that have a text of the grammar. -/
lemma proper_of_hasFilter (he : e.Built) (h : e.HasFilter ctx f) : f.Proper := by
  obtain ⟨e', log, _, _, _, hresolve, hf⟩ := h
  have hbuilt := Built.resolve ctx log he
  rw [hresolve] at hbuilt
  exact (denotes_of_filter hbuilt.shaped hf).2

/-- A literal expression that has a filter has it whatever was asked for before. -/
lemma exists_runs_of_hasFilter (he : e.Literal) (h : e.HasFilter ctx f) :
    ∃ e', (∀ log : CallLog, (e.resolve ctx).run log = ((e', .ok ()), log))
      ∧ ∀ log : CallLog, e'.filter.run.run log = (.ok f, log) := by
  obtain ⟨e', log, mid, log', log'', hresolve, hf⟩ := h
  obtain ⟨e₁, result, hruns, -, hwritten⟩ := resolve_literal ctx he
  have hrun := (hruns log).symm.trans hresolve
  obtain rfl : e₁ = e' := congrArg (·.1.1) hrun
  obtain rfl : result = .ok () := congrArg (·.1.2) hrun
  obtain ⟨r, hr, -⟩ := hwritten rfl
  obtain rfl : r = .ok f := congrArg Prod.fst ((hr log').symm.trans hf)
  exact ⟨e₁, hruns, hr⟩

/-- A literal expression has one filter. -/
lemma hasFilter_unique {g : Filter} (he : e.Literal) (hf : e.HasFilter ctx f)
    (hg : e.HasFilter ctx g) : f = g := by
  obtain ⟨e', hresolve, hfilter⟩ := exists_runs_of_hasFilter he hf
  obtain ⟨e₁, hresolve₁, hfilter₁⟩ := exists_runs_of_hasFilter he hg
  obtain rfl : e' = e₁ := congrArg (·.1.1) ((hresolve []).symm.trans (hresolve₁ []))
  exact Except.ok.inj (congrArg Prod.fst ((hfilter []).symm.trans (hfilter₁ [])))

/-- **The text of a built expression reads back as its filter**, its values being given at once. -/
theorem readsAs_of_hasFilter (hbuilt : e.Built) (hliteral : e.Literal) (h : e.HasFilter ctx f) :
    e.ReadsAs ctx f := by
  refine ⟨⟨f.render, hasText_iff.mpr ⟨f, h, rfl⟩⟩, fun t ht => ?_⟩
  obtain ⟨g, hg, rfl⟩ := hasText_iff.mp ht
  rw [hasFilter_unique hliteral hg h]
  exact Filter.read_render (proper_of_hasFilter hbuilt h)

/-! ### Leaves and composites -/

/-- **A leaf that puts no test to a flag has a filter just when its attribute and value can be
written**, whatever the test. -/
theorem hasFilter_leaf_iff (test : LeafTest) (hflag : test.flagless? ≠ none)
    (htest : test ≠ .wildcard .present) :
    HasFilter ctx (.leaf ⟨test, .ofSource name (.literal v)⟩) f ↔
      ∃ raw, ctx.Writes name v raw ∧ f = test.assertion (ctx.writtenName name) raw.octets := by
  constructor
  · rintro ⟨e', log, mid, log', log'', hresolve, hf⟩
    rw [resolve_leaf_of_literal rfl] at hresolve
    have hsettle : Leaf.settle ctx ⟨test, .ofSource name (.literal v)⟩ v
        = (_, .ok ()) := Prod.ext rfl (congrArg (·.1.2) hresolve)
    obtain ⟨o, ho, hcheck, hl⟩ := Leaf.settle_eq_ok_iff.mp hsettle
    obtain rfl : Expression.leaf ⟨test, o⟩ = e' := by
      rw [← hl]
      exact congrArg (·.1.1) hresolve
    have hnone : o.flag = none := hcheck.resolve_right hflag
    rw [filter] at hf
    obtain ⟨hvalid, bs, hbs, rfl⟩ :=
      (Leaf.exists_filter_iff test htest hnone (Operand.octets_of_settle ho)).mp ⟨_, _, hf⟩
    obtain ⟨raw, hraw, rfl⟩ := map_eq_ok.mp hbs
    have hname : o.filterName = ctx.writtenName name := Operand.filterName_of_settle ho
    rw [hname] at hvalid ⊢
    exact ⟨raw, ⟨⟨o, ho, hnone⟩, hvalid, hraw⟩, rfl⟩
  · rintro ⟨raw, ⟨⟨o, ho, hnone⟩, hvalid, hraw⟩, rfl⟩
    have hname : o.filterName = ctx.writtenName name := Operand.filterName_of_settle ho
    have hsettle : Leaf.settle ctx ⟨test, .ofSource name (.literal v)⟩ v = (⟨test, o⟩, .ok ()) :=
      Leaf.settle_eq_ok_iff.mpr ⟨o, ho, .inl hnone, rfl⟩
    obtain ⟨log, log', hf⟩ :=
      (Leaf.exists_filter_iff test htest hnone (Operand.octets_of_settle ho)).mpr
        ⟨hname ▸ hvalid, raw.octets, by rw [hraw]; rfl, rfl⟩
    refine ⟨.leaf ⟨test, o⟩, [], [], log, log', ?_, ?_⟩
    · rw [resolve_leaf_of_literal rfl, hsettle]
    · rw [filter, hf, hname]

/-- An attribute that can be written with a value can be asked for on its own. -/
lemma hasFilter_present (h : ctx.Writes name v raw) :
    (present name).HasFilter ctx (.item (ctx.writtenName name) .equal [[], []]) := by
  obtain ⟨⟨o, ho, -⟩, hvalid, -⟩ := h
  obtain ⟨o', ho'⟩ := Operand.exists_settle_bare ho
  have hname : o'.filterName = ctx.writtenName name := Operand.filterName_of_settle ho'
  have hsettle : Leaf.settle ctx ⟨.wildcard .present, .bare name⟩ .null
      = (⟨.wildcard .present, o'⟩, .ok ()) :=
    Leaf.settle_eq_ok_iff.mpr ⟨o', ho', .inl (Operand.flag_of_settle_bare ho'), rfl⟩
  refine ⟨.leaf ⟨.wildcard .present, o'⟩, [], [], [], [], ?_, ?_⟩
  · show (resolve ctx (.leaf ⟨.wildcard .present, .bare name⟩)).run [] = _
    rw [resolve_leaf_of_literal rfl, hsettle]
  · rw [filter, Leaf.filter, Operand.checkedName, hname, if_pos hvalid]
    rfl

/-- Expressions that are resolved together, and then have filters together, have them each. -/
lemma forall₂_hasFilter : ∀ {es es' : List Expression} {fs : List Filter}
    {log mid log' log'' : CallLog}, (resolveAll ctx es).run log = ((es', .ok ()), mid) →
    (filterAll es').run.run log' = (.ok fs, log'') → List.Forall₂ (HasFilter ctx) es fs
  | [], _, _, log, mid, log', log'', hresolve, hfs => by
      rw [resolveAll_nil] at hresolve
      cases hresolve
      rw [filterAll] at hfs
      cases hfs
      exact .nil
  | e :: es, _, _, log, mid, log', log'', hresolve, hfs => by
      rcases resolveAll_cons_iff.mp hresolve with
        ⟨_, _, _, _, hfault⟩ | ⟨e', es', mid', he, hes, rfl⟩
      · cases hfault
      · rw [filterAll] at hfs
        obtain ⟨f, mid'', hf, hrest⟩ := Writing.bind_eq_ok hfs
        obtain ⟨fs, _, hfs, hpure⟩ := Writing.bind_eq_ok hrest
        cases hpure
        exact .cons ⟨e', log, mid', log', mid'', he, hf⟩ (forall₂_hasFilter hes hfs)

/-- Literal expressions that have filters have them together. -/
lemma exists_runs_of_forall₂ {es : List Expression} {fs : List Filter}
    (h : List.Forall₂ (HasFilter ctx) es fs) : (∀ e ∈ es, e.Literal) →
    ∃ es', (∀ log : CallLog, (resolveAll ctx es).run log = ((es', .ok ()), log))
      ∧ ∀ log : CallLog, (filterAll es').run.run log = (.ok fs, log) := by
  induction h with
  | nil =>
      intro _
      exact ⟨[], resolveAll_nil ctx, fun log => by rw [filterAll]; rfl⟩
  | @cons e f es fs hf _ ih =>
      intro hliteral
      rw [List.forall_mem_cons] at hliteral
      obtain ⟨e', hresolve, hfilter⟩ := exists_runs_of_hasFilter hliteral.1 hf
      obtain ⟨es', hresolves, hfilters⟩ := ih hliteral.2
      refine ⟨e' :: es', fun log => resolveAll_cons_iff.mpr
        (.inr ⟨e', es', log, hresolve log, hresolves log, rfl⟩), fun log => ?_⟩
      rw [filterAll, Writing.run_bind_of_ok (hfilter log), Writing.run_bind_of_ok (hfilters log)]
      rfl

/-- **A composite has the filters of its children under its mark**, its values being given at once
and its children not being object classes to choose from. -/
theorem hasFilter_composite_iff {kind : Connective} {symbol : Symbol} {es : List Expression}
    (hkind : kind ≠ .classes) (hne : es ≠ []) (hliteral : ∀ e ∈ es, e.Literal) :
    HasFilter ctx (.composite kind symbol es) f ↔
      ∃ fs, List.Forall₂ (HasFilter ctx) es fs ∧ f = .composite symbol fs := by
  have hsymbol : ∀ size, symbolAfter (.ok ()) kind symbol size = symbol := by
    intro size
    simp [symbolAfter, Composite.settledSymbol, hkind]
  constructor
  · rintro ⟨e', log, mid, log', log'', hresolve, hf⟩
    obtain ⟨es', hes, rfl⟩ := resolve_composite_iff.mp hresolve
    rcases filter_composite_eq_ok hf with ⟨_, hclasses, -⟩ | ⟨-, -, fs, hfs, rfl⟩
    · exact absurd hclasses hkind
    · refine ⟨fs, forall₂_hasFilter hes hfs, ?_⟩
      rw [if_neg hkind, hsymbol]
  · rintro ⟨fs, hfs, rfl⟩
    obtain ⟨es', hes, hfilters⟩ := exists_runs_of_forall₂ hfs hliteral
    refine ⟨.composite kind symbol es', [], [], [], [],
      resolve_composite_iff.mpr ⟨es', hes [], by rw [hsymbol]⟩, ?_⟩
    rw [filter]
    · exact Writing.run_map_of_ok (hfilters []) (Filter.composite symbol)
    · rintro rfl
      have hnil := (hfilters []).symm
      rw [filterAll] at hnil
      cases hnil
      cases hfs
      exact hne rfl
    · exact fun _ h => absurd h hkind
    · exact hkind

/-- A leaf that is denied has the negation of its filter. -/
lemma hasFilter_notLeaf_iff {l : Leaf} (h : l.operand.source = .literal v) :
    HasFilter ctx (notLeaf l) f ↔ ∃ g, HasFilter ctx (.leaf l) g ∧ f = .composite .no [g] := by
  rw [notLeaf, hasFilter_composite_iff (by decide) (List.cons_ne_nil _ _)
    (List.forall_mem_singleton.mpr (literal_leaf_iff.mpr ⟨_, h⟩))]
  constructor
  · rintro ⟨fs, hfs, rfl⟩
    obtain ⟨g, _, hg, hnil, rfl⟩ := List.forall₂_cons_left_iff.mp hfs
    obtain rfl := List.forall₂_nil_left_iff.mp hnil
    exact ⟨g, hg, rfl⟩
  · rintro ⟨g, hg, rfl⟩
    exact ⟨[g], .cons hg .nil, rfl⟩

end Expression

end DirectoryLens
