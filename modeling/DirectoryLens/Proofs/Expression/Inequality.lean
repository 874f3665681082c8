/-
Strict inequalities, which filters have no comparator for.

* `Expression.denial`: an attribute has values, and a comparison of it does not hold;
* `hasFilter_denial_iff`: a denial is written as the negated comparison beside the presence of the
  attribute, both on the name that the attribute is written with;
* `strict_inequalities`: strict inequalities are true of the entries whose values are all strictly
  greater, or less, than the stored value.
-/
import DirectoryLens.Proofs.Expression.Written
import DirectoryLens.Proofs.Filter.Evaluation

namespace DirectoryLens

namespace Expression

variable {ctx : Context} {name : String} {v : Value} {comparator : Comparator} {raw : RawValue}
  {f : Filter}

/-! ### Denials -/

/-- The attribute has values, and a comparison of it does not hold. -/
def denial (name : String) (comparator : Comparator) (v : Value) : Expression :=
  all [notLeaf (.compare name comparator (.literal v)), present name]

/-- A denial is built. -/
lemma built_denial (name : String) (comparator : Comparator) (v : Value) :
    (denial name comparator v).Built := by
  refine .all fun e he => ?_
  rcases List.mem_pair.mp he with rfl | rfl
  · exact .notLeaf (.compare ..)
  · exact .wildcard ..

/-- The parts of a denial have their values given at once. -/
lemma literal_of_mem_denial : ∀ e ∈ [notLeaf (.compare name comparator (.literal v)), present name],
    e.Literal := by
  intro e he
  rcases List.mem_pair.mp he with rfl | rfl
  · simp [notLeaf, Leaf.compare, Operand.ofSource]
  · exact literal_leaf_iff.mpr ⟨_, rfl⟩

/-- A comparison is no test of presence. -/
lemma compare_ne_present : LeafTest.compare comparator ≠ .wildcard .present := nofun

/-- A comparison other than for equality cannot be put to a flag. -/
lemma flagless?_compare_ne_none (h : comparator ≠ .equal) :
    LeafTest.flagless? (.compare comparator) ≠ none := by
  cases comparator with
  | equal => exact absurd rfl h
  | approx | lessOrEqual | greaterOrEqual => nofun

/-- **A denial is written as the negated comparison beside the presence of the attribute**, if the
attribute and the value can be written. -/
theorem hasFilter_denial_iff (h : comparator ≠ .equal) :
    (denial name comparator v).HasFilter ctx f ↔ ∃ raw, ctx.Writes name v raw
      ∧ f = .composite .all [.composite .no [.item (ctx.writtenName name) comparator [raw.octets]],
        .item (ctx.writtenName name) .equal [[], []]] := by
  have hflag := flagless?_compare_ne_none h
  rw [denial, all, hasFilter_composite_iff (by decide) (List.cons_ne_nil _ _) literal_of_mem_denial]
  constructor
  · rintro ⟨fs, hfs, rfl⟩
    obtain ⟨f₁, _, h₁, hrest, rfl⟩ := List.forall₂_cons_left_iff.mp hfs
    obtain ⟨f₂, _, h₂, hnil, rfl⟩ := List.forall₂_cons_left_iff.mp hrest
    obtain rfl := List.forall₂_nil_left_iff.mp hnil
    obtain ⟨g, hg, rfl⟩ := (hasFilter_notLeaf_iff rfl).mp h₁
    obtain ⟨raw, hwrites, rfl⟩ := (hasFilter_leaf_iff _ hflag compare_ne_present).mp hg
    obtain rfl := hasFilter_unique (literal_leaf_iff.mpr ⟨_, rfl⟩) h₂ (hasFilter_present hwrites)
    exact ⟨raw, hwrites, rfl⟩
  · rintro ⟨raw, hwrites, rfl⟩
    have hcompare := (hasFilter_leaf_iff _ hflag compare_ne_present).mpr ⟨raw, hwrites, rfl⟩
    exact ⟨_, .cons ((hasFilter_notLeaf_iff rfl).mpr ⟨_, hcompare, rfl⟩)
      (.cons (hasFilter_present hwrites) .nil), rfl⟩

/-! ### Strict inequalities -/

/-- A comparison other than for equality reads back on the name that the attribute is written with,
and so does its denial. -/
lemma readsAs_of_writes (comparator : Comparator) (hcomparator : comparator ≠ .equal)
    (h : ctx.Writes name v raw) :
    (compare name comparator v).ReadsAs ctx (.item (ctx.writtenName name) comparator [raw.octets])
      ∧ (denial name comparator v).ReadsAs ctx
        (.composite .all [.composite .no [.item (ctx.writtenName name) comparator [raw.octets]],
          .item (ctx.writtenName name) .equal [[], []]]) :=
  ⟨readsAs_of_hasFilter (.compare ..) (literal_leaf_iff.mpr ⟨v, rfl⟩)
      ((hasFilter_leaf_iff _ (flagless?_compare_ne_none hcomparator) compare_ne_present).mpr
        ⟨raw, h, rfl⟩),
    readsAs_of_hasFilter (built_denial ..) (literal_composite_iff.mpr literal_of_mem_denial)
      ((hasFilter_denial_iff hcomparator).mpr ⟨raw, h, rfl⟩)⟩

/-- **Strict inequalities mean what they say.** When one of them has a text, the value is stored as
some octets, and both inequalities and both bounds have texts that read back. However values are in
order, and whether assertions on an attribute that an entry lacks are false or undefined, "greater"
is true of the entries that have values of the written attribute, all of them strictly greater than
the stored value, and "less" of those whose values are all strictly less. Of an entry with one value
one of "less", "greater" and both bounds together is true, and of one without values none is. -/
theorem strict_inequalities {t : String}
    (h : (greater name v).HasText ctx t ∨ (less name v).HasText ctx t) :
    ∃ (raw : RawValue) (gt lt ge le : Filter), ctx.stored name v = .ok raw
      ∧ (greater name v).ReadsAs ctx gt ∧ (less name v).ReadsAs ctx lt
      ∧ (atLeast name v).ReadsAs ctx ge ∧ (atMost name v).ReadsAs ctx le
      ∧ ∀ r : Reading,
        (r.truth gt = .yes ↔ r.values (ctx.writtenName name) ≠ []
            ∧ ∀ x ∈ r.values (ctx.writtenName name), r.lt raw.octets x)
          ∧ (r.truth lt = .yes ↔ r.values (ctx.writtenName name) ≠ []
            ∧ ∀ x ∈ r.values (ctx.writtenName name), r.lt x raw.octets)
          ∧ (∀ x, r.values (ctx.writtenName name) = [x] → OneHolds (r.truth lt = .yes)
            (r.truth gt = .yes) (r.truth ge = .yes ∧ r.truth le = .yes))
          ∧ (r.values (ctx.writtenName name) = [] → r.truth lt ≠ .yes ∧ r.truth gt ≠ .yes
            ∧ ¬(r.truth ge = .yes ∧ r.truth le = .yes)) := by
  have hwrites : ∃ raw, ctx.Writes name v raw := by
    rcases h with h | h
    · obtain ⟨f, hf, -⟩ := hasText_iff.mp h
      obtain ⟨raw, hwrites, -⟩ := (hasFilter_denial_iff (by decide)).mp hf
      exact ⟨raw, hwrites⟩
    · obtain ⟨f, hf, -⟩ := hasText_iff.mp h
      obtain ⟨raw, hwrites, -⟩ := (hasFilter_denial_iff (by decide)).mp hf
      exact ⟨raw, hwrites⟩
  obtain ⟨raw, hwrites⟩ := hwrites
  obtain ⟨hatMost, hgreater⟩ := readsAs_of_writes .lessOrEqual (by decide) hwrites
  obtain ⟨hatLeast, hless⟩ := readsAs_of_writes .greaterOrEqual (by decide) hwrites
  refine ⟨raw, _, _, _, _, hwrites.stored_eq, hgreater, hless, hatLeast, hatMost, fun r => ?_⟩
  have hgt := r.truth_denied_lessOrEqual_iff (ctx.writtenName name) raw.octets
  have hlt := r.truth_denied_greaterOrEqual_iff (ctx.writtenName name) raw.octets
  refine ⟨hgt, hlt, fun x hx => ?_, fun hnil => ?_⟩
  · simpa [hgt, hlt, hx] using r.oneHolds x raw.octets
  · simp [hgt, hlt, hnil]

/-- The number of logons, stored as a decimal number. -/
def logonSchema : ObjectSchema :=
  ((ObjectSchema.ofNames "ad" "user").setAttributes [("logons", "logonCount")]).setConverters
    [("logons", "int")]

/-- Strict inequalities on a number that is given as text, with a sign. -/
theorem strict_inequalities_logons :
    let ctx : Context := ⟨.builtin, some logonSchema, true⟩
    let v : Value := .string "+5"
    (greater "Logons" v).HasText ctx "(&(!(logonCount<=5))(logonCount=*))"
      ∧ ∃ (raw : RawValue) (gt lt ge le : Filter), ctx.stored "Logons" v = .ok raw
        ∧ (greater "Logons" v).ReadsAs ctx gt ∧ (less "Logons" v).ReadsAs ctx lt
        ∧ (atLeast "Logons" v).ReadsAs ctx ge ∧ (atMost "Logons" v).ReadsAs ctx le
        ∧ ∀ r : Reading,
          (r.truth gt = .yes ↔ r.values (ctx.writtenName "Logons") ≠ []
              ∧ ∀ x ∈ r.values (ctx.writtenName "Logons"), r.lt raw.octets x)
            ∧ (r.truth lt = .yes ↔ r.values (ctx.writtenName "Logons") ≠ []
              ∧ ∀ x ∈ r.values (ctx.writtenName "Logons"), r.lt x raw.octets)
            ∧ (∀ x, r.values (ctx.writtenName "Logons") = [x] → OneHolds (r.truth lt = .yes)
              (r.truth gt = .yes) (r.truth ge = .yes ∧ r.truth le = .yes))
            ∧ (r.values (ctx.writtenName "Logons") = [] → r.truth lt ≠ .yes ∧ r.truth gt ≠ .yes
              ∧ ¬(r.truth ge = .yes ∧ r.truth le = .yes)) := by
  intro ctx v
  have htext : (greater "Logons" v).HasText ctx "(&(!(logonCount<=5))(logonCount=*))" :=
    hasText_of_run (by decide +kernel) (by decide +kernel)
  exact ⟨htext, strict_inequalities (.inl htext)⟩

end Expression

end DirectoryLens
