/-
Extensible matches as they are built, and as a reader of filters takes them.

* `Operand.run_octets_ofSource`: an operand that is not resolved is written with its own value;
* `matching_eq_ok_iff`: an extensible match is built of identifiers of rules;
* `text_matching`: it is written with that identifier;
* `matching_keeps_rule`: and read with it, unless the identifier is taken for the mark of
  distinguished names.
-/
import DirectoryLens.Proofs.Expression.Written
import DirectoryLens.Proofs.Filter.Extensible

namespace DirectoryLens

variable {name id : String} {source : Source} {v : Value} {raw : RawValue} {log mid : CallLog}

/-- An operand that is not resolved is written with its own value, which is asked for if it is
deferred. -/
lemma Operand.run_octets_ofSource (hv : source.evaluate.run log = (v, mid))
    (hraw : v.toRaw = .ok raw) :
    (ofSource name source).octets.run.run log = (.ok raw.octets, mid) := by
  show ((do
    let v ← (source.evaluate : Calling Value)
    return (← octets.liftExcept v.toRaw).octets : Writing Octets)).run.run log = _
  rw [Writing.run_lift_bind, hv, hraw]
  rfl

namespace Expression

/-- An extensible match is built of the identifiers of rules. -/
lemma matching_eq_ok_iff {e : Expression} : matching name id source = .ok e ↔
    ∃ rule : RuleId, rule.text = id ∧ e = .leaf (.rule name rule source) := by
  rw [matching, RuleId.ofText?]
  split
  · rename_i rule hrule
    split_ifs at hrule with hvalid
    obtain rfl := Option.some.inj hrule
    constructor
    · intro h
      exact ⟨⟨id, hvalid⟩, rfl, (Except.ok.inj h).symm⟩
    · rintro ⟨rule, rfl, rfl⟩
      rfl
  · rename_i hrule
    split_ifs at hrule with hvalid
    constructor
    · intro h
      cases h
    · rintro ⟨rule, rfl, -⟩
      exact absurd rule.valid hvalid

/-- An extensible match that is not resolved is written with its attribute, its identifier and the
stored form of its value. -/
lemma text_matching (rule : RuleId) (hname : Filter.isAttributeName name.toList)
    (hv : source.evaluate.run log = (v, mid)) (hraw : v.toRaw = .ok raw) :
    (Expression.leaf (.rule name rule source)).text.run.run log
      = (.ok (Filter.extensible name rule raw.octets).render, mid) := by
  have hchecked : (Operand.ofSource name source).checkedName = .ok name := by
    show (if Filter.isAttributeName name.toList then Except.ok name else _) = _
    rw [if_pos hname]
  have hfilter : (Expression.leaf (.rule name rule source)).filter.run.run log
      = (.ok (.extensible name rule raw.octets), mid) := by
    rw [filter, Leaf.rule, Leaf.filter_of_flag_eq_none (.rule rule) nofun rfl, hchecked]
    exact Writing.run_map_of_ok (Operand.run_octets_ofSource hv hraw)
      (LeafTest.assertion (.rule rule) name)
  exact Writing.run_map_of_ok hfilter Filter.render

/-- **An extensible match keeps its rule, unless that is taken for the mark of distinguished
names.** One of an identifier that is accepted, with an attribute's name and a value that has a
stored form, has a text, which is read as an extensible match of that attribute and the stored
octets. It is read with the identifier as its rule, and without the mark, just when the identifier
is not `dn`, in any case; that identifier is read as the mark, and no rule is left. -/
theorem matching_keeps_rule {e : Expression} (hid : matching name id source = .ok e)
    (hname : Filter.isAttributeName name.toList) (hv : source.evaluate.run log = (v, mid))
    (hraw : v.toRaw = .ok raw) :
    ∃ (rule : RuleId) (t : String) (x : Extensible), rule.text = id
      ∧ e.text.run.run log = (.ok t, mid) ∧ Filter.readExtensible t = some x
      ∧ x.name = name ∧ x.value = raw.octets
      ∧ (x.rule = some rule ∧ x.nameAttributes = false ↔ id.toList.map Char.toLower ≠ ['d', 'n'])
      ∧ (x.rule = none ∧ x.nameAttributes = true ↔ id.toList.map Char.toLower = ['d', 'n']) := by
  obtain ⟨rule, rfl, rfl⟩ := matching_eq_ok_iff.mp hid
  have hread := Filter.readExtensible_render hname rule raw.octets
  have hmark : Filter.isNameMark rule.text.toList = true
      ↔ rule.text.toList.map Char.toLower = ['d', 'n'] := decide_eq_true_iff
  refine ⟨rule, _, _, rfl, text_matching rule hname hv hraw, hread, ?_⟩
  rw [ne_eq, ← hmark]
  by_cases h : Filter.isNameMark rule.text.toList = true
  · simp [h]
  · simp [h]

/-- A descriptor that the mark is the head of is kept, and so is a value with an asterisk. -/
theorem matching_keeps_rule_descriptor :
    (∃ e, matching "cn" "dnQualifier" (.literal (.string "a*")) = .ok e)
      ∧ ∀ e, matching "cn" "dnQualifier" (.literal (.string "a*")) = .ok e →
        ∃ (rule : RuleId) (t : String) (x : Extensible), rule.text = "dnQualifier"
          ∧ e.text.run.run [] = (.ok t, []) ∧ Filter.readExtensible t = some x
          ∧ x.name = "cn" ∧ x.value = Octets.ofText "a*"
          ∧ (x.rule = some rule ∧ x.nameAttributes = false ↔
            "dnQualifier".toList.map Char.toLower ≠ ['d', 'n'])
          ∧ (x.rule = none ∧ x.nameAttributes = true ↔
            "dnQualifier".toList.map Char.toLower = ['d', 'n']) :=
  ⟨⟨_, rfl⟩, fun _ h => matching_keeps_rule h (by decide) rfl rfl⟩

/-- The identifier `dn` is accepted, and read as the mark. -/
theorem not_every_rule_kept :
    ¬ ∀ (name id : String) (v : Value) (raw : RawValue) (e : Expression),
      matching name id (.literal v) = .ok e → Filter.isAttributeName name.toList →
      v.toRaw = .ok raw → ∃ (rule : RuleId) (t : String), rule.text = id
        ∧ e.text.run.run [] = (.ok t, [])
        ∧ Filter.readExtensible t = some ⟨name, false, some rule, raw.octets⟩ := by
  intro h
  obtain ⟨rule, t, hrule, htext, hread⟩ :=
    h "cn" "dn" (.string "x") (.text "x") _ rfl (by decide) rfl
  obtain rfl : "(cn:dn:=x)" = t := by
    have hrun : (Expression.leaf
          (.rule "cn" ⟨"dn", by decide⟩ (.literal (.string "x")))).text.run.run []
        = (.ok "(cn:dn:=x)", ([] : CallLog)) := rfl
    exact Except.ok.inj (congrArg Prod.fst (hrun.symm.trans htext))
  have hmark : Filter.readExtensible "(cn:dn:=x)" = some ⟨"cn", true, none, [0x78]⟩ := rfl
  cases hmark.symm.trans hread

end Expression

end DirectoryLens
