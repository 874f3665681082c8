/-
What the text of an expression says to a reader of filters.

* `Operand.Stores`: the octets of an operand's filter value;
* `Leaf.Denotes`, `Expression.Denotes`: the filter that an expression stands for, said of each kind
  of leaf and composite on its own;
* `Expression.text`: the filter text of an expression;
* `denotes_of_filter`: a shaped expression is written as the filter it stands for, which has a text
  of the grammar;
* `read_text_denotes`: the text of whatever is built reads back as the filter it stands for.
-/
import DirectoryLens.Proofs.Expression.Built
import DirectoryLens.Proofs.Filter.Reader

namespace DirectoryLens

/-! ### Computations that succeed -/

namespace Writing

variable {α β : Type}

/-- What succeeds in two steps succeeds in each of them. -/
lemma bind_eq_ok {m : Writing α} {k : α → Writing β} {log log' : CallLog} {b : β}
    (h : (m >>= k).run.run log = (.ok b, log')) :
    ∃ a mid, m.run.run log = (.ok a, mid) ∧ (k a).run.run mid = (.ok b, log') := by
  simp only [bind, ExceptT.bind, ExceptT.run, ExceptT.mk, StateT.bind, StateT.run] at h ⊢
  revert h
  cases m log with
  | mk result mid =>
      intro h
      cases result with
      | error => cases h
      | ok a => exact ⟨a, mid, rfl, h⟩

/-- A step that succeeds goes on with what it gives. -/
lemma run_bind_of_ok {m : Writing α} {k : α → Writing β} {log mid : CallLog} {a : α}
    (h : m.run.run log = (.ok a, mid)) : (m >>= k).run.run log = (k a).run.run mid := by
  simp only [bind, ExceptT.bind, ExceptT.run, ExceptT.mk, StateT.bind, StateT.run] at h ⊢
  rw [h]
  rfl

/-- What succeeds under a function succeeds without it. -/
lemma map_eq_ok {m : Writing α} {g : α → β} {log log' : CallLog} {b : β}
    (h : (g <$> m).run.run log = (.ok b, log')) :
    ∃ a, m.run.run log = (.ok a, log') ∧ g a = b := by
  rw [map_eq_pure_bind] at h
  obtain ⟨a, mid, hm, hb⟩ := bind_eq_ok h
  cases hb
  exact ⟨a, hm, rfl⟩

end Writing

/-! ### What an expression stands for -/

/-- The octets of an operand's filter value: those of its converted value if there is one, else
those of the stored form of its own value, which a deferred value gives when it is asked. -/
inductive Operand.Stores (o : Operand) : Octets → Prop
  | converted {raw : RawValue} : o.converted = some raw → Stores o raw.octets
  | literal {v : Value} {raw : RawValue} : o.converted = none → o.source = .literal v →
      v.toRaw = .ok raw → Stores o raw.octets
  | deferred {d : Deferred} {n : Nat} {raw : RawValue} : o.converted = none →
      o.source = .deferred d → (d.answer n).toRaw = .ok raw → Stores o raw.octets

/-- The assertion that the bits of a flag's mask are set in an attribute. -/
def FlagTest.assertion (flag : FlagTest) (name : String) : Filter :=
  .extensible name .bitwiseAnd (Octets.ofText (Number.decimal flag.mask.toNat))

/-- The filter that a leaf stands for. A flag under a comparison or a rule is tested by its bits,
and the test is negated when they are to be clear. -/
inductive Leaf.Denotes : Leaf → Filter → Prop
  | compare {o : Operand} {comparator : Comparator} {bs : Octets} : o.flag = none → o.Stores bs →
      Denotes ⟨.compare comparator, o⟩ (.item o.filterName comparator [bs])
  | rule {o : Operand} {id : RuleId} {bs : Octets} : o.flag = none → o.Stores bs →
      Denotes ⟨.rule id, o⟩ (.extensible o.filterName id bs)
  | flagSet {test : LeafTest} {o : Operand} {flag : FlagTest} : (∀ p, test ≠ .wildcard p) →
      o.flag = some flag → flag.set = true → Denotes ⟨test, o⟩ (flag.assertion o.filterName)
  | flagClear {test : LeafTest} {o : Operand} {flag : FlagTest} : (∀ p, test ≠ .wildcard p) →
      o.flag = some flag → flag.set = false →
      Denotes ⟨test, o⟩ (.composite .no [flag.assertion o.filterName])
  | contains {o : Operand} {bs : Octets} : o.Stores bs →
      Denotes ⟨.wildcard .contains, o⟩ (.item o.filterName .equal [[], bs, []])
  | startsWith {o : Operand} {bs : Octets} : o.Stores bs →
      Denotes ⟨.wildcard .startsWith, o⟩ (.item o.filterName .equal [bs, []])
  | endsWith {o : Operand} {bs : Octets} : o.Stores bs →
      Denotes ⟨.wildcard .endsWith, o⟩ (.item o.filterName .equal [[], bs])
  | like {o : Operand} {bs : Octets} : o.Stores bs →
      Denotes ⟨.wildcard .like, o⟩ (.item o.filterName .equal (bs.splitOn 0x2A))
  | present {o : Operand} : Denotes ⟨.wildcard .present, o⟩ (.item o.filterName .equal [[], []])

/-- The filter that an expression stands for: the connectives have theirs whatever mark is kept
beside them, their children stand in the same order, and a single class stands for itself. -/
inductive Expression.Denotes : Expression → Filter → Prop
  | leaf {l : Leaf} {f : Filter} : l.Denotes f → Denotes (.leaf l) f
  | all {symbol : Symbol} {es : List Expression} {fs : List Filter} : es ≠ [] →
      List.Forall₂ Denotes es fs → Denotes (.composite .and symbol es) (.composite .all fs)
  | any {symbol : Symbol} {es : List Expression} {fs : List Filter} : es ≠ [] →
      List.Forall₂ Denotes es fs → Denotes (.composite .or symbol es) (.composite .any fs)
  | no {symbol : Symbol} {e : Expression} {f : Filter} : Denotes e f →
      Denotes (.composite .not symbol [e]) (.composite .no [f])
  | oneClass {symbol : Symbol} {e : Expression} {f : Filter} : Denotes e f →
      Denotes (.composite .classes symbol [e]) f
  | classes {symbol : Symbol} {es : List Expression} {fs : List Filter} : 1 < es.length →
      List.Forall₂ Denotes es fs → Denotes (.composite .classes symbol es) (.composite .any fs)

/-- The filter text of an expression. -/
def Expression.text (e : Expression) : Writing String :=
  Filter.render <$> e.filter

/-! ### Leaves -/

/-- A result is kept as it is when it stands for a computation. -/
lemma Operand.liftExcept_eq_ok {α : Type} {r : Except QueryError α} {a : α} {log log' : CallLog}
    (h : (octets.liftExcept r).run.run log = (.ok a, log')) : r = .ok a ∧ log' = log := by
  cases h
  exact ⟨rfl, rfl⟩

/-- Octets that an operand gives are those of its filter value. -/
lemma Operand.stores_of_octets {o : Operand} {bs : Octets} {log log' : CallLog}
    (h : o.octets.run.run log = (.ok bs, log')) : o.Stores bs := by
  rw [octets] at h
  split at h
  · rename_i raw hraw
    cases h
    exact .converted hraw
  · rename_i hconverted
    obtain ⟨v, mid, hv, hbs⟩ := Writing.bind_eq_ok h
    obtain ⟨raw, mid', hlift, hraw⟩ := Writing.bind_eq_ok hbs
    obtain ⟨hstored, -⟩ := liftExcept_eq_ok hlift
    cases hraw
    cases hsource : o.source with
    | literal w =>
        rw [hsource] at hv
        cases hv
        exact .literal hconverted hsource hstored
    | deferred d =>
        rw [hsource] at hv
        cases hv
        exact .deferred hconverted hsource hstored

/-- A checked name is the operand's name in filters, and one that attributes may have. -/
lemma Operand.checkedName_eq_ok {o : Operand} {name : String} (h : o.checkedName = .ok name) :
    name = o.filterName ∧ Filter.isAttributeName name.toList := by
  rw [checkedName] at h
  split at h
  · rename_i hname
    obtain rfl := Except.ok.inj h
    exact ⟨rfl, hname⟩
  · cases h

/-- The test of a flag is what the flag stands for, and has a text of the grammar. -/
lemma FlagTest.denotes_filter {test : LeafTest} {o : Operand} {flag : FlagTest}
    (htest : ∀ p, test ≠ .wildcard p) (hflag : o.flag = some flag)
    (hname : Filter.isAttributeName o.filterName.toList) :
    Leaf.Denotes ⟨test, o⟩ (flag.filter o.filterName) ∧ (flag.filter o.filterName).Proper := by
  rw [FlagTest.filter]
  split
  · rename_i hset
    exact ⟨.flagSet htest hflag hset, .extensible hname⟩
  · rename_i hset
    refine ⟨.flagClear htest hflag (Bool.eq_false_of_not_eq_true hset), ?_⟩
    exact .composite (by simp) (fun _ => rfl) (by simpa using .extensible hname)

/-- A leaf is written as the filter it stands for, which has a text of the grammar. -/
lemma Leaf.denotes_of_filter {l : Leaf} {f : Filter} {log log' : CallLog}
    (h : l.filter.run.run log = (.ok f, log')) : l.Denotes f ∧ f.Proper := by
  obtain ⟨test, o⟩ := l
  obtain ⟨name, mid, hchecked, hrest⟩ := Writing.bind_eq_ok h
  obtain ⟨rfl, hname⟩ := Operand.checkedName_eq_ok (Operand.liftExcept_eq_ok hchecked).1
  cases test with
  | compare comparator =>
      cases hflag : o.flag with
      | some flag =>
          simp only [hflag] at hrest
          cases hrest
          exact FlagTest.denotes_filter (by simp) hflag hname
      | none =>
          simp only [hflag] at hrest
          obtain ⟨bs, mid', hbs, hf⟩ := Writing.bind_eq_ok hrest
          cases hf
          exact ⟨.compare hflag (Operand.stores_of_octets hbs), .item hname (by simp)⟩
  | rule id =>
      cases hflag : o.flag with
      | some flag =>
          simp only [hflag] at hrest
          cases hrest
          exact FlagTest.denotes_filter (by simp) hflag hname
      | none =>
          simp only [hflag] at hrest
          obtain ⟨bs, mid', hbs, hf⟩ := Writing.bind_eq_ok hrest
          cases hf
          exact ⟨.rule hflag (Operand.stores_of_octets hbs), .extensible hname⟩
  | wildcard placement =>
      by_cases hpresent : placement = .present
      · subst hpresent
        cases hrest
        exact ⟨.present, .item hname (by simp [Placement.pieces])⟩
      · -- every other placement writes the pieces that it makes of the value
        have hpieces : ((fun bs => Filter.item o.filterName .equal (placement.pieces bs))
            <$> o.octets).run.run mid = (.ok f, log') := by
          rw [map_eq_pure_bind]
          cases placement <;> first | exact hrest | exact absurd rfl hpresent
        obtain ⟨bs, hbs, rfl⟩ := Writing.map_eq_ok hpieces
        have hstores := Operand.stores_of_octets hbs
        cases placement with
        | contains => exact ⟨.contains hstores, .item hname (by simp [Placement.pieces])⟩
        | startsWith => exact ⟨.startsWith hstores, .item hname (by simp [Placement.pieces])⟩
        | endsWith => exact ⟨.endsWith hstores, .item hname (by simp [Placement.pieces])⟩
        | like => exact ⟨.like hstores, .item hname (List.splitOn_ne_nil _ _)⟩
        | present => exact absurd rfl hpresent

/-! ### Composites -/

namespace Expression

/-- Filters that expressions have are had one by one. -/
lemma forall₂_of_filterAll : ∀ {es : List Expression} {fs : List Filter} {log log' : CallLog},
    (filterAll es).run.run log = (.ok fs, log') →
    List.Forall₂ (fun e f => ∃ log log', e.filter.run.run log = (.ok f, log')) es fs
  | [], fs, log, log', h => by
      rw [filterAll] at h
      cases h
      exact .nil
  | e :: es, fs, log, log', h => by
      rw [filterAll] at h
      obtain ⟨f, mid, hf, hrest⟩ := Writing.bind_eq_ok h
      obtain ⟨gs, mid', hgs, hpure⟩ := Writing.bind_eq_ok hrest
      cases hpure
      exact .cons ⟨log, mid, hf⟩ (forall₂_of_filterAll hgs)

/-- A composite that has a filter has children. A single class has the filter of that class; any
other composite has its children's filters under its mark, which is forced on several classes. -/
lemma filter_composite_eq_ok {kind : Connective} {symbol : Symbol} {es : List Expression}
    {f : Filter} {log log' : CallLog}
    (h : (filter (.composite kind symbol es)).run.run log = (.ok f, log')) :
    (∃ e, kind = .classes ∧ es = [e] ∧ e.filter.run.run log = (.ok f, log')) ∨
    (es ≠ [] ∧ (kind = .classes → 1 < es.length) ∧
      ∃ fs, (filterAll es).run.run log = (.ok fs, log') ∧
        f = .composite (if kind = .classes then .any else symbol) fs) := by
  cases es with
  | nil =>
      rw [filter] at h
      cases h
  | cons e es =>
      cases kind with
      | classes =>
          cases es with
          | nil =>
              rw [filter] at h
              exact .inl ⟨e, rfl, rfl, h⟩
          | cons e' es =>
              rw [filter] at h
              · obtain ⟨fs, hfs, rfl⟩ := Writing.map_eq_ok h
                exact .inr ⟨by simp, by simp, fs, hfs, rfl⟩
              · simp
              · simp
      | and | or | not =>
          rw [filter] at h
          · obtain ⟨fs, hfs, rfl⟩ := Writing.map_eq_ok h
            exact .inr ⟨by simp, by simp, fs, hfs, rfl⟩
          · simp
          · simp
          · simp

/-- **A shaped expression is written as the filter it stands for**, which has a text of the
grammar. -/
theorem denotes_of_filter {e : Expression} (h : e.Shaped) : ∀ {f : Filter} {log log' : CallLog},
    e.filter.run.run log = (.ok f, log') → e.Denotes f ∧ f.Proper := by
  induction h with
  | leaf l =>
      intro f log log' hf
      rw [filter] at hf
      obtain ⟨hdenotes, hproper⟩ := Leaf.denotes_of_filter hf
      exact ⟨.leaf hdenotes, hproper⟩
  | @composite kind symbol es hsymbol hnot _ ih =>
      intro f log log' hf
      rcases filter_composite_eq_ok hf with ⟨e, rfl, rfl, he⟩ | ⟨hne, hsize, fs, hfs, rfl⟩
      · obtain ⟨hdenotes, hproper⟩ := ih e (by simp) he
        exact ⟨.oneClass hdenotes, hproper⟩
      · have hall : List.Forall₂ (fun e f => e.Denotes f ∧ f.Proper) es fs :=
          ((List.forall₂_and_left es fs).mpr ⟨ih, forall₂_of_filterAll hfs⟩).imp
            fun e f ⟨he, log, log', hf⟩ => he hf
        have hdenotes : List.Forall₂ Denotes es fs := hall.imp fun _ _ h => h.1
        have hproper : ∀ f ∈ fs, f.Proper := by
          intro f hf
          obtain ⟨e, -, -, hf⟩ := exists_mem_of_forall₂ hall hf
          exact hf
        have hlen : es.length = fs.length := hall.length_eq
        have hfsne : fs ≠ [] := by
          rintro rfl
          exact hne (List.length_eq_zero_iff.mp hlen)
        cases kind with
        | and =>
            obtain rfl : symbol = .all := by simpa [Connective.allowed] using hsymbol
            exact ⟨.all hne hdenotes, .composite hfsne (by simp) hproper⟩
        | or =>
            obtain rfl : symbol = .any := by simpa [Connective.allowed] using hsymbol
            exact ⟨.any hne hdenotes, .composite hfsne (by simp) hproper⟩
        | classes => exact ⟨.classes (hsize rfl) hdenotes, .composite hfsne (by simp) hproper⟩
        | not =>
            -- the shape leaves a negation that has children one leaf, hence one filter
            obtain rfl : symbol = .no := by simpa [Connective.allowed] using hsymbol
            obtain ⟨l, rfl⟩ := (hnot rfl).resolve_left hne
            obtain ⟨f, hf⟩ := List.length_eq_one_iff.mp hlen.symm
            subst hf
            exact ⟨.no (List.forall₂_cons.mp hdenotes).1, .composite hfsne (fun _ => rfl) hproper⟩

/-- **Filter text reads back as the expression.** Whatever constructors, builders and resolution
make of an expression, its filter text is, from end to end, the text of a filter, and that filter
is the one that the expression stands for. -/
theorem read_text_denotes {e : Expression} (he : e.Built) {log log' : CallLog} {text : String}
    (h : e.text.run.run log = (.ok text, log')) :
    ∃ f, Filter.read text = some f ∧ e.Denotes f := by
  obtain ⟨f, hf, rfl⟩ := Writing.map_eq_ok h
  obtain ⟨hdenotes, hproper⟩ := denotes_of_filter he.shaped hf
  exact ⟨f, Filter.read_render hproper, hdenotes⟩

/-- A schema with one flag, for instances of general statements. -/
def flagSchema : ObjectSchema :=
  ((ObjectSchema.ofNames "ad" "user").setAttributes
    [("disabled", "userAccountControl")]).setConverters [("disabled", "uac_disabled")]

/-- A flag that is to be clear, a class whose name holds octets that are escaped, and a pattern
that is not to match. -/
def flagQuery : Expression :=
  all [eq "Disabled" (.boolean false), ofClasses [eq "objectClass" (.binary [0x2A, 0xC3])],
    notLeaf (.wildcard "cn" .like (.literal (.binary [0x2A, 0x61])))]

/-- The query is built, and so is what resolution makes of it. -/
lemma flagQuery_built (ctx : Context) (log : CallLog) :
    flagQuery.Built ∧ ((flagQuery.resolve ctx).run log).1.1.Built := by
  have hbuilt : flagQuery.Built := by
    refine .all fun e he => ?_
    simp only [List.mem_cons, List.not_mem_nil, or_false] at he
    rcases he with rfl | rfl | rfl
    · exact .compare ..
    · exact .ofClasses (by simpa using .compare ..)
    · exact .notLeaf (.wildcard ..)
  exact ⟨hbuilt, .resolve ctx log hbuilt⟩

/-- The text of the query, resolved against the schema, reads back. -/
theorem read_text_denotes_flagQuery :
    let e := ((flagQuery.resolve ⟨.builtin, some flagSchema, false⟩).run []).1.1
    let text :=
      "(&(!(userAccountControl:1.2.840.113556.1.4.803:=2))(objectClass=\\2a\\c3)(!(cn=*a)))"
    e.Built ∧ e.text.run.run [] = (.ok text, []) ∧
      ∃ f, Filter.read text = some f ∧ e.Denotes f := by
  intro e text
  have hbuilt : e.Built := (flagQuery_built _ _).2
  have htext : e.text.run.run [] = (.ok text, []) := rfl
  exact ⟨hbuilt, htext, read_text_denotes hbuilt htext⟩

end Expression

end DirectoryLens
