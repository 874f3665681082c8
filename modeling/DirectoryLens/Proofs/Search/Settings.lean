/-
Base and page size of searches.

* `Config.BaseRule`, `Config.PageRule`: the bases and page sizes that settings may have;
* `Config.validate_eq_ok_iff`: usable settings are those that have such ones;
* `Compiler.request_usable_iff`: under usable settings a request has such ones just when the schema
  names no others.
-/
import DirectoryLens.Proofs.Schema.Definition
import DirectoryLens.Proofs.Search.Parts

namespace DirectoryLens

/-! ### Rules -/

namespace Config

/-- A base is empty or names an attribute. -/
def BaseRule (baseDn : String) : Prop :=
  baseDn = "" ∨ '=' ∈ baseDn.toList

instance (baseDn : String) : Decidable (BaseRule baseDn) :=
  inferInstanceAs (Decidable (_ ∨ _))

/-- A page size, if there is one, lies between one and the greatest. -/
def PageRule (pageSize : Option UInt32) : Prop :=
  ∀ n ∈ pageSize, 1 ≤ n.toNat ∧ n.toNat ≤ maxPageSize

instance (pageSize : Option UInt32) : Decidable (PageRule pageSize) :=
  decidable_of_iff (pageSize.all fun n => 1 ≤ n.toNat ∧ n.toNat ≤ maxPageSize)
    (by cases pageSize <;> simp [PageRule])

/-- **Settings are usable when their base and page size obey the rules.** -/
theorem validate_eq_ok_iff {c : Config} :
    c.validate = .ok () ↔ BaseRule c.baseDn ∧ PageRule c.pageSize := by
  have hbase : (c.baseDn ≠ "" ∧ '=' ∉ c.baseDn.toList) ↔ ¬ BaseRule c.baseDn := by
    rw [BaseRule, not_or]
  rw [validate]
  by_cases hrule : BaseRule c.baseDn
  · rw [if_neg (mt hbase.mp (not_not.mpr hrule))]
    cases hpage : c.pageSize with
    | none => simp [hrule, PageRule]
    | some n =>
        have hzero : n = 0 ↔ n.toNat = 0 := UInt32.toNat_inj.symm
        simp only [PageRule, Option.mem_some_iff, forall_eq', hrule, true_and]
        split_ifs with h₁ h₂
        · simp [h₁]
        · simp [Nat.not_le.mpr h₂]
        · simp only [true_iff]
          exact ⟨Nat.one_le_iff_ne_zero.mpr (mt hzero.mpr h₁), Nat.not_lt.mp h₂⟩
  · rw [if_pos (hbase.mpr hrule)]
    simp [hrule]

/-- A page size that goes before another one decides the rule, when the other one obeys it. -/
lemma pageRule_or_iff {p q : Option UInt32} (h : PageRule q) : PageRule (p.or q) ↔ PageRule p := by
  cases p with
  | none => simpa [PageRule] using h
  | some n => rw [Option.some_or]

/-- A base that goes before another one decides the rule, when the other one obeys it. -/
lemma baseRule_getD_iff {b : Option String} {dn : String} (h : BaseRule dn) :
    BaseRule (b.getD dn) ↔ ∀ dn' ∈ b, BaseRule dn' := by
  cases b with
  | none => simpa using h
  | some dn' => simp

end Config

/-! ### Requests -/

namespace Compiler

variable {registry : Registry} {config : Config} {c : Compiler} {schema : Option ObjectSchema}
  {e : Expression} {selected : List String} {log mid : CallLog} {request : SearchRequest}

/-- A compiler has usable settings. -/
lemma validate_of_ofConfig (h : ofConfig registry config = .ok c) :
    config.validate = .ok () ∧ c.config = config := by
  rw [ofConfig] at h
  split at h
  · rename_i hvalid
    obtain rfl := Except.ok.inj h
    exact ⟨hvalid, rfl⟩
  · cases h

/-- **Under usable settings a request obeys the rules just when the schema does.** What the schema
says of base and page size goes before the settings, and is not validated with them. Only a
definition's page size is never zero. -/
theorem request_usable_iff (hc : ofConfig registry config = .ok c)
    (h : (({ c with schema } : Compiler).compileSelecting e selected).run.run log
      = (.ok request, mid)) :
    (Config.PageRule request.pageSize ↔ Config.PageRule (schema.bind (·.pageSize)))
      ∧ (Config.BaseRule request.baseDn ↔
        ∀ dn ∈ schema.bind (·.baseDn), Config.BaseRule dn)
      ∧ ∀ (d : SchemaDefinition) (s : ObjectSchema), schema = some s → d.toSchema = .ok s →
        request.pageSize ≠ some 0 := by
  obtain ⟨hvalid, rfl⟩ := validate_of_ofConfig hc
  obtain ⟨hbase, hpage⟩ := Config.validate_eq_ok_iff.mp hvalid
  rw [eq_requestOf_of_compileSelecting h]
  refine ⟨Config.pageRule_or_iff hpage, Config.baseRule_getD_iff hbase, ?_⟩
  rintro d s rfl hs hzero
  rcases Option.or_eq_some_iff.mp hzero with hschema | ⟨-, hconfig⟩
  · exact (SchemaDefinition.of_toSchema hs).2 hschema
  · have hpositive := (hpage 0 hconfig).1
    simp at hpositive

/-- Users of one unit, by pages of two hundred. -/
def unitUser : SchemaDefinition :=
  { SchemaDefinition.ofNames "ad" "user" with
    baseDn := some "ou=people,dc=example", pageSize := some 200 }

/-- Settings with a base and a page size of their own. -/
def exampleConfig : Config :=
  { Config.default with baseDn := "dc=example", pageSize := some 500 }

/-- Where the definition names base and page size, the request has these and not those of the
settings, and they obey the rules. -/
theorem request_usable_unitUser :
    ∃ c s request, ofConfig .builtin exampleConfig = .ok c ∧ unitUser.toSchema = .ok s
      ∧ (({ c with schema := some s } : Compiler).compileSelecting (.present "cn") []).run.run []
        = (.ok request, [])
      ∧ request.baseDn = "ou=people,dc=example" ∧ request.pageSize = some 200
      ∧ Config.PageRule request.pageSize ∧ Config.BaseRule request.baseDn
      ∧ request.pageSize ≠ some 0 := by
  have hc : ofConfig .builtin exampleConfig = .ok ⟨.builtin, exampleConfig, none⟩ := rfl
  have hschema : unitUser.toSchema = .ok { ObjectSchema.ofNames "ad" "user" with
      baseDn := some "ou=people,dc=example", pageSize := some 200 } := rfl
  have hrequest : ((⟨.builtin, exampleConfig, some { ObjectSchema.ofNames "ad" "user" with
      baseDn := some "ou=people,dc=example", pageSize := some 200 }⟩ : Compiler).compileSelecting
        (.present "cn") []).run.run []
      = (.ok ⟨.item "cn" .equal [[], []], "ou=people,dc=example", .subtree, [], some 200⟩, []) :=
    rfl
  obtain ⟨hpage, hbase, hpositive⟩ := request_usable_iff hc hrequest
  exact ⟨_, _, _, hc, hschema, hrequest, rfl, rfl, hpage.mpr (by decide), hbase.mpr (by decide),
    hpositive unitUser _ rfl hschema⟩

/-- Users who are found under no distinguished name, by very large pages. -/
def pagedUser : SchemaDefinition :=
  { SchemaDefinition.ofNames "ad" "user" with baseDn := some "people", pageSize := some 200000 }

/-- A definition may ask for a base and a page size that settings may not have. -/
theorem not_every_request_usable :
    ¬ ∀ (registry : Registry) (config : Config) (c : Compiler), ofConfig registry config = .ok c →
      ∀ (d : SchemaDefinition) (s : ObjectSchema), d.toSchema = .ok s →
      ∀ (e : Expression) (selected : List String) (log mid : CallLog) (request : SearchRequest),
        (({ c with schema := some s } : Compiler).compileSelecting e selected).run.run log
          = (.ok request, mid) →
        Config.PageRule request.pageSize ∧ Config.BaseRule request.baseDn := by
  intro h
  have hpage : Config.PageRule (some 200000) :=
    (h .builtin .default _ rfl pagedUser _ rfl (.present "cn") [] [] [] _ rfl).1
  revert hpage
  decide

end Compiler

end DirectoryLens
