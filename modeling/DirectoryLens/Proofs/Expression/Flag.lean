/-
Flags in filters and in hydrated entries.

* `StoredFlag.holds_filter_iff`: the test of a flag holds of an entry when the bits that it stores
  are as asked;
* `Expression.FlagTree`: joined assertions that flags are set or clear;
* `Expression.Agrees`: an expression is resolved and written as a filter that holds when it does;
* `FlagTree.agrees`: whatever is joined of flags agrees;
* `FlagTree.filter_holds_iff`: a filter on flags holds of an entry when the expression holds of
  what the entry is hydrated to.
-/
import DirectoryLens.Proofs.Entry.Flag
import DirectoryLens.Proofs.Expression.Meaning
import DirectoryLens.Proofs.Expression.Truth

namespace DirectoryLens

open Text

/-! ### Tests of bits -/

/-- The decimal text of a mask is read as its number. -/
lemma number?_mask (mask : UInt32) :
    (RawValue.binary (Octets.ofText (Number.decimal mask.toNat))).number?
      = some (Int64.ofInt mask.toNat) := by
  have hlt : mask.toNat < 0x8000_0000_0000_0000 := mask.toNat_lt.trans (by decide)
  rw [RawValue.number?, RawValue.text?_binary_ofText]
  simp [RawValue.text?, Number.int64?, hlt]

namespace StoredFlag

variable {registry : Registry} {s : ObjectSchema} {e : Entry} {name d : String} {mask : UInt32}
  {n : Int64}

/-- The bits of a mask are set in an entry when they are set in the number that it stores. -/
lemma bitsSet_iff (h : StoredFlag registry s e name d mask n) :
    e.BitsSet d (Octets.ofText (Number.decimal mask.toNat))
      ↔ (Converter.lowBits n &&& mask == mask) = true := by
  obtain ⟨x, raw, hfilter, htext⟩ := h.stored
  have hnumber : raw.number? = some n := by
    simp [RawValue.number?, htext]
  have hmem : ∀ p, p ∈ e.toList ∧ fold p.1 = fold d ↔ p = (x, [raw]) := by
    intro p
    have hp : p ∈ e.toList.filter (fun p => fold p.1 == fold d) ↔ p = (x, [raw]) := by
      rw [hfilter, List.mem_singleton]
    rwa [List.mem_filter, beq_iff_eq] at hp
  rw [beq_iff_eq, Converter.lowBits_and_eq_iff, Entry.BitsSet, number?_mask]
  constructor
  · rintro ⟨m, hm, p, hp, hfold, raw', hraw', n', hn', hbits⟩
    cases hm
    obtain rfl := (hmem p).mp ⟨hp, hfold⟩
    obtain rfl := List.mem_singleton.mp hraw'
    rw [hnumber] at hn'
    cases hn'
    exact hbits
  · intro hbits
    obtain ⟨hx, hfold⟩ := (hmem (x, [raw])).mpr rfl
    exact ⟨_, rfl, _, hx, hfold, raw, List.mem_singleton_self raw, n, hnumber, hbits⟩

/-- The test of a flag holds of an entry when the bits that it stores are as asked. -/
lemma holds_filter_iff (h : StoredFlag registry s e name d mask n) (other : Filter → Prop)
    (converter : String) (b : Bool) :
    ((FlagTest.mk converter mask b).filter d).Holds (e.Meets other)
      ↔ (Converter.lowBits n &&& mask == mask) = b := by
  have hbits : (Filter.extensible d .bitwiseAnd (Octets.ofText (Number.decimal mask.toNat))).Holds
      (e.Meets other) ↔ (Converter.lowBits n &&& mask == mask) = true := by
    rw [Filter.Holds, Entry.Meets, if_pos rfl, h.bitsSet_iff]
  cases b with
  | true => exact hbits
  | false =>
      rw [← Bool.not_eq_true, ← hbits]
      exact Filter.holds_no

/-! ### Leaves -/

/-- The value of a flag makes a test of the name that it is mapped to. -/
lemma settle_operand (h : StoredFlag registry s e name d mask n) (hs : s.DistinctNames)
    (strict b : Bool) :
    ∃ (o : Operand) (converter : String),
      (Operand.ofSource name (.literal (.boolean b))).settle ⟨registry, some s, strict⟩ (.boolean b)
          = (o, .ok ())
        ∧ o.filterName = d ∧ o.flag = some ⟨converter, mask, b⟩ := by
  obtain ⟨converter, own, hconverter, hget⟩ := h.converter
  have htranslated : (if strict then s.mappedName name else .ok (s.directoryName name))
      = .ok d := by
    have hd := hs.directoryName? h.declared
    rw [ObjectSchema.mappedName, ObjectSchema.directoryName, hd]
    cases strict <;> rfl
  have hname : d.isEmpty = false := by
    rw [Bool.eq_false_iff]
    intro hempty
    have hvalid := h.valid
    rw [String.isEmpty_iff.mp hempty] at hvalid
    cases hvalid
  obtain ⟨raw, hraw⟩ : ∃ raw, (Converter.flag own mask).toDirectory (.boolean b) = .ok raw := by
    cases b with
    | true => exact ⟨_, rfl⟩
    | false => exact ⟨_, rfl⟩
  refine ⟨{ Operand.ofSource name (.literal (.boolean b)) with
    translated := d, converted := some raw, flag := some ⟨converter, mask, b⟩ },
    converter, ?_, ?_, rfl⟩
  · simp only [Operand.settle, Operand.translate, Operand.reset, Operand.ofSource, htranslated,
      if_pos, hconverter, Operand.convert, hget, hraw]
    rfl
  · rw [Operand.filterName, hname]
    rfl

/-- A leaf that asks for a flag is resolved, and written as the test of the flag. -/
lemma exists_settle_leaf (h : StoredFlag registry s e name d mask n) (hs : s.DistinctNames)
    (strict b : Bool) {test : LeafTest} (htest : test.flagless? = none) (log : CallLog) :
    ∃ (l : Leaf) (converter : String),
      Leaf.settle ⟨registry, some s, strict⟩ ⟨test, .ofSource name (.literal (.boolean b))⟩
          (.boolean b) = (l, .ok ())
        ∧ l.filter.run.run log = (.ok ((FlagTest.mk converter mask b).filter d), log) := by
  obtain ⟨o, converter, hsettle, hname, hflag⟩ := h.settle_operand hs strict b
  refine ⟨⟨test, o⟩, converter, ?_, ?_⟩
  · simp only [Leaf.settle, hsettle, Leaf.checkFlag, hflag, htest]
  · have hchecked : (Operand.octets.liftExcept o.checkedName).run.run log = (.ok d, log) := by
      rw [Operand.checkedName, hname, if_pos h.valid]
      rfl
    rw [Leaf.filter, Writing.run_bind_of_ok hchecked]
    cases test with
    | compare comparator =>
        simp only [hflag]
        rfl
    | rule id =>
        simp only [hflag]
        rfl
    | wildcard placement => cases htest

end StoredFlag

namespace Expression

/-! ### Trees -/

/-- Conjunctions and disjunctions that are not empty, of assertions that named flags are set or
clear, and of such assertions negated. -/
inductive FlagTree (names : List String) : Expression → Prop
  | eq {name : String} (b : Bool) : name ∈ names → FlagTree names (eq name (.boolean b))
  | bitwiseAnd {name : String} (b : Bool) : name ∈ names →
      FlagTree names (bitwiseAnd name (.boolean b))
  | notLeaf {l : Leaf} : FlagTree names (.leaf l) → FlagTree names (notLeaf l)
  | all {es : List Expression} : es ≠ [] → (∀ e ∈ es, FlagTree names e) → FlagTree names (all es)
  | any {es : List Expression} : es ≠ [] → (∀ e ∈ es, FlagTree names e) → FlagTree names (any es)

/-- Trees of flags are built. -/
lemma FlagTree.built {names : List String} {e : Expression} (h : e.FlagTree names) : e.Built := by
  induction h with
  | eq => exact .compare ..
  | bitwiseAnd => exact .rule ..
  | notLeaf _ ih => exact .notLeaf ih
  | all _ _ ih => exact .all ih
  | any _ _ ih => exact .any ih

/-- An expression is resolved, and written as a filter that holds when it does. -/
def Agrees (ctx : Context) (log : CallLog) (tests : Filter → Prop) (leaves : Leaf → Prop)
    (e : Expression) : Prop :=
  ∃ e' f, (e.resolve ctx).run log = ((e', .ok ()), log) ∧ e'.filter.run.run log = (.ok f, log)
    ∧ (f.Holds tests ↔ e.Holds leaves)

variable {ctx : Context} {log : CallLog} {tests : Filter → Prop} {leaves : Leaf → Prop}

/-- Expressions that agree are resolved and written one after another. -/
lemma exists_resolveAll_of_agrees : ∀ {es : List Expression},
    (∀ e ∈ es, Agrees ctx log tests leaves e) →
    ∃ es' fs, (resolveAll ctx es).run log = ((es', .ok ()), log)
      ∧ (filterAll es').run.run log = (.ok fs, log) ∧ es'.length = es.length
      ∧ List.Forall₂ (fun f e => f.Holds tests ↔ e.Holds leaves) fs es
  | [], _ => ⟨[], [], by simp, by rw [filterAll]; rfl, rfl, .nil⟩
  | e :: es, h => by
      obtain ⟨e', f, hresolve, hfilter, hholds⟩ := h e List.mem_cons_self
      obtain ⟨es', fs, hresolves, hfilters, hlength, hall⟩ :=
        exists_resolveAll_of_agrees fun x hx => h x (List.mem_cons_of_mem e hx)
      refine ⟨e' :: es', f :: fs, ?_, ?_, ?_, .cons hholds hall⟩
      · rw [resolveAll_cons, hresolve]
        dsimp only
        rw [hresolves]
      · rw [filterAll, Writing.run_bind_of_ok hfilter, Writing.run_bind_of_ok hfilters]
        rfl
      · rw [List.length_cons, List.length_cons, hlength]

/-- A composite other than of classes agrees when its children do. -/
lemma agrees_composite {kind : Connective} {es : List Expression} (hkind : kind ≠ .classes)
    (hne : es ≠ []) (h : ∀ e ∈ es, Agrees ctx log tests leaves e) :
    Agrees ctx log tests leaves (.composite kind kind.defaultSymbol es) := by
  obtain ⟨es', fs, hresolves, hfilters, hlength, hall⟩ := exists_resolveAll_of_agrees h
  refine ⟨.composite kind kind.defaultSymbol es', .composite kind.defaultSymbol fs, ?_, ?_, ?_⟩
  · rw [resolve_composite, hresolves]
    simp [Composite.settledSymbol, hkind]
  · cases es' with
    | nil => exact absurd (List.length_eq_zero_iff.mp hlength.symm) hne
    | cons e' es' =>
        rw [filter]
        · exact Writing.run_bind_of_ok hfilters
        · exact List.cons_ne_nil e' es'
        · exact fun _ h => absurd h hkind
        · exact hkind
  · rw [Filter.Holds, Holds, truths_eq hall]

/-! ### Flags agree -/

variable {registry : Registry} {s : ObjectSchema} {entry : Entry} {names : List String}
  {out : HydratedEntry}

/-- A leaf that asks for a flag agrees: its filter holds when the hydrated value is the one that is
asked for. -/
lemma agrees_flag {name d : String} {mask : UInt32} {n : Int64}
    (h : StoredFlag registry s entry name d mask n) (hs : s.DistinctNames)
    (hout : out.get? name = some (.boolean (Converter.lowBits n &&& mask == mask)))
    (strict b : Bool) {test : LeafTest} (htest : test.flagless? = none) (log : CallLog)
    (other : Filter → Prop) :
    Agrees ⟨registry, some s, strict⟩ log (entry.Meets other) (·.HeldBy out)
      (.leaf ⟨test, .ofSource name (.literal (.boolean b))⟩) := by
  obtain ⟨l, converter, hsettle, hfilter⟩ := h.exists_settle_leaf hs strict b htest log
  refine ⟨.leaf l, (FlagTest.mk converter mask b).filter d, ?_, ?_, ?_⟩
  · rw [resolve_leaf_of_literal rfl, hsettle]
  · rw [filter]
    exact hfilter
  · rw [h.holds_filter_iff, Holds]
    constructor
    · rintro rfl
      exact ⟨_, rfl, hout⟩
    · rintro ⟨v, hv, hget⟩
      cases hv
      exact Value.boolean.inj (Option.some.inj (hout.symm.trans hget))

/-- **Trees of flags agree**: each is resolved, and written as a filter that holds of an entry when
the tree holds of what the entry is hydrated to. -/
lemma FlagTree.agrees (hs : s.DistinctNames)
    (hnames : ∀ name ∈ names, ∃ d mask n, StoredFlag registry s entry name d mask n)
    (hout : ∀ name ∈ names, ∀ d mask n, StoredFlag registry s entry name d mask n →
      out.get? name = some (.boolean (Converter.lowBits n &&& mask == mask)))
    (strict : Bool) (log : CallLog) (other : Filter → Prop) {tree : Expression}
    (htree : tree.FlagTree names) :
    Agrees ⟨registry, some s, strict⟩ log (entry.Meets other) (·.HeldBy out) tree := by
  induction htree with
  | @eq name b hname =>
      obtain ⟨d, mask, n, hflag⟩ := hnames name hname
      exact agrees_flag hflag hs (hout name hname d mask n hflag) strict b rfl log other
  | @bitwiseAnd name b hname =>
      obtain ⟨d, mask, n, hflag⟩ := hnames name hname
      exact agrees_flag hflag hs (hout name hname d mask n hflag) strict b rfl log other
  | notLeaf _ ih =>
      exact agrees_composite (by decide : Connective.not ≠ .classes) (List.cons_ne_nil _ _)
        (List.forall_mem_singleton.mpr ih)
  | all hne _ ih => exact agrees_composite (by decide : Connective.and ≠ .classes) hne ih
  | any hne _ ih => exact agrees_composite (by decide : Connective.or ≠ .classes) hne ih

/-- **Filters on flags agree with hydration.** A tree of flags is resolved and has a text, which
reads back as a filter; that filter holds of an entry exactly when the tree holds of the entry
hydrated with the names of the flags. -/
theorem FlagTree.filter_holds_iff (hs : s.DistinctNames)
    (hnames : ∀ name ∈ names, ∃ d mask n, StoredFlag registry s entry name d mask n)
    {tree : Expression} (htree : tree.FlagTree names) (strict : Bool) (log : CallLog)
    (other : Filter → Prop) :
    ∃ tree' text f out,
      (tree.resolve ⟨registry, some s, strict⟩).run log = ((tree', .ok ()), log)
      ∧ tree'.text.run.run log = (.ok text, log)
      ∧ Filter.read text = some f
      ∧ Hydrator.hydrate ⟨registry, some s, some names⟩ entry = .ok out
      ∧ (f.Holds (entry.Meets other) ↔ tree.Holds (·.HeldBy out)) := by
  obtain ⟨out, hhydrate, hout⟩ := exists_hydrate_flags hs hnames
  obtain ⟨tree', f, hresolve, hfilter, hholds⟩ :=
    htree.agrees hs hnames hout strict log other
  have hbuilt : tree'.Built := by
    have hresolved := Built.resolve ⟨registry, some s, strict⟩ log htree.built
    rw [hresolve] at hresolved
    exact hresolved
  have hproper : f.Proper := (denotes_of_filter hbuilt.shaped hfilter).2
  refine ⟨tree', f.render, f, out, hresolve, ?_, Filter.read_render hproper, hhydrate, hholds⟩
  rw [text, map_eq_pure_bind, Writing.run_bind_of_ok hfilter]
  rfl

/-- An entry whose control word is a negative number with the bit of disabled accounts set. -/
def disabledEntry : Entry :=
  .ofPairs [("UserAccountControl", [.text "-2147483134"]), ("cn", [.text "jdoe"])]

/-- An account is disabled, asked in two ways, the second of them negated. -/
def disabledTree : Expression :=
  all [eq "disabled" (.boolean true),
    notLeaf (.rule "disabled" .bitwiseAnd (.literal (.boolean false)))]

/-- The tree on the one flag of the schema, and the entry that stores it. -/
theorem filter_holds_iff_disabledEntry :
    ∃ tree' text f out,
      (disabledTree.resolve ⟨.builtin, some flagSchema, true⟩).run [] = ((tree', .ok ()), [])
      ∧ tree'.text.run.run [] = (.ok text, [])
      ∧ Filter.read text = some f
      ∧ Hydrator.hydrate ⟨.builtin, some flagSchema, some ["disabled"]⟩ disabledEntry = .ok out
      ∧ (f.Holds (disabledEntry.Meets fun _ => False) ↔ disabledTree.Holds (·.HeldBy out)) := by
  have hs : flagSchema.DistinctNames := List.nodup_singleton _
  have hflag : StoredFlag .builtin flagSchema disabledEntry "disabled" "userAccountControl" 2
      (-2147483134) := by
    constructor
    case declared => exact List.mem_cons_self
    case valid => decide
    case noBookkeeping => decide
    case converter => exact ⟨"uac_disabled", "uac_disabled", rfl, rfl⟩
    case stored => exact ⟨"UserAccountControl", .text "-2147483134", rfl, rfl⟩
    case alone =>
        intro p hp heq
        have hp : p ∈ [("UserAccountControl", [RawValue.text "-2147483134"]),
            ("cn", [RawValue.text "jdoe"])] := hp
        rcases List.mem_cons.mp hp with rfl | hp
        · exact absurd heq (by decide)
        · obtain rfl := List.mem_singleton.mp hp
          exact absurd heq (by decide)
  have htree : disabledTree.FlagTree ["disabled"] := by
    refine .all (List.cons_ne_nil _ _) fun e he => ?_
    rcases List.mem_cons.mp he with rfl | he
    · exact .eq true List.mem_cons_self
    · obtain rfl := List.mem_singleton.mp he
      exact .notLeaf (.bitwiseAnd false List.mem_cons_self)
  exact FlagTree.filter_holds_iff hs
    (List.forall_mem_singleton.mpr ⟨_, _, _, hflag⟩) htree true [] fun _ => False

end Expression

end DirectoryLens
