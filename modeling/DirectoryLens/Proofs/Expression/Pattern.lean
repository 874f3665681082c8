/-
Patterns whose asterisks are wildcards, as they are written and read.

* `Context.StoresIdentifier`: the values of an attribute are stored as identifiers of objects;
* `count_octets_eq_iff`: a pattern is stored with its own asterisks and no others, unless one is an
  octet of an identifier;
* `hasFilter_like_iff`: a pattern is written as what it is stored as, cut at its asterisks;
* `like_wildcards`: wildcards come only of the asterisks of the pattern, with that exception.
-/
import DirectoryLens.Proofs.Converter.Pattern
import DirectoryLens.Proofs.Expression.Written
import DirectoryLens.Proofs.Filter.Pattern

namespace DirectoryLens

open Text

variable {ctx : Context} {name p t : String} {v : Value} {raw : RawValue}

/-! ### Stored patterns -/

namespace Context

/-- The values of an attribute are stored as identifiers of objects. -/
def StoresIdentifier (ctx : Context) (name : String) : Prop :=
  ∃ converter, ctx.converterFor name = some converter
    ∧ fold converter ∈ ["windows_guid", "windows_sid"]

/-- A pattern is stored with its own asterisks and no others, unless one is an octet of an
identifier. -/
lemma count_octets_eq_iff (hstandard : ctx.registry.Standard)
    (h : ctx.stored name (.string p) = .ok raw) :
    raw.octets.count 0x2A = p.toList.count '*' ↔
      ¬ (ctx.StoresIdentifier name ∧ 0x2A ∈ raw.octets) := by
  rw [stored] at h
  cases hconverter : ctx.converterFor name with
  | none =>
      rw [hconverter] at h
      obtain rfl : RawValue.text p = raw := Except.ok.inj h
      refine iff_of_true (RawValue.count_octets_text p) ?_
      rintro ⟨⟨converter, hsome, -⟩, -⟩
      cases hconverter.symm.trans hsome
  | some converter =>
      rw [hconverter] at h
      obtain ⟨hpattern, hidentifier⟩ := hstandard.not_mem_asterisk h
      rw [List.count_eq_zero_of_not_mem hpattern, List.count_eq_zero, not_iff_not]
      exact ⟨fun hmem => ⟨⟨converter, hconverter, hidentifier hmem⟩, hmem⟩, And.right⟩

end Context

/-! ### Written patterns -/

namespace Expression

/-- A pattern is written as what it is stored as, cut at its asterisks. -/
lemma hasFilter_like_iff {f : Filter} : (like name v).HasFilter ctx f ↔
    ∃ raw, ctx.Writes name v raw
      ∧ f = .item (ctx.writtenName name) .equal (Filter.piecesOfPattern raw.octets) :=
  hasFilter_leaf_iff (.wildcard .like) nofun nofun

/-- **Wildcards come only of the asterisks of a pattern, unless it is read as an identifier.** With
the converters that are always there, the text of a pattern is an equation of the written attribute
with the stored pattern, and it is read with the pieces between the asterisks of that. There are as
many wildcards as asterisks in the pattern just when none is an octet of an identifier; and just
then a pattern without asterisks is read as an equation with one value. -/
theorem like_wildcards (hstandard : ctx.registry.Standard)
    (h : (like name (.string p)).HasText ctx t) :
    ∃ (raw : RawValue) (value : List Char) (pieces : List Octets),
      ctx.stored name (.string p) = .ok raw
        ∧ t.toList = '(' :: (ctx.writtenName name).toList ++ '=' :: value ++ [')']
        ∧ Filter.read t = some (.item (ctx.writtenName name) .equal pieces)
        ∧ value.count '*' + 1 = pieces.length
        ∧ (value.count '*' = p.toList.count '*' ↔
          ¬ (ctx.StoresIdentifier name ∧ 0x2A ∈ raw.octets))
        ∧ ('*' ∉ p.toList → (pieces = [raw.octets] ↔
          ¬ (ctx.StoresIdentifier name ∧ 0x2A ∈ raw.octets))) := by
  obtain ⟨f, hf, rfl⟩ := hasText_iff.mp h
  have hread := readsAs_of_hasFilter (.wildcard ..) (literal_leaf_iff.mpr ⟨_, rfl⟩) hf
  obtain ⟨raw, hwrites, rfl⟩ := hasFilter_like_iff.mp hf
  have hcount := Context.count_octets_eq_iff hstandard hwrites.stored_eq
  refine ⟨raw, Filter.escapePattern raw.octets, _, hwrites.stored_eq, ?_, hread.2 _ h, ?_, ?_,
    fun hp => ?_⟩
  · rw [Filter.render, String.toList_ofList, Filter.chars, Filter.joinPieces_piecesOfPattern]
    simp [Comparator.symbol]
  · rw [Filter.count_escapePattern]
    exact (Filter.length_piecesOfPattern raw.octets).symm
  · rw [Filter.count_escapePattern, hcount]
  · rw [← hcount, List.count_eq_zero_of_not_mem hp]
    exact Filter.piecesOfPattern_eq_singleton_iff raw.octets

/-- Pieces of a name, with a parenthesis that is no part of the filter. -/
theorem like_wildcards_name :
    let schema := (ObjectSchema.ofNames "ad" "user").setAttributes [("name", "cn")]
    let ctx : Context := ⟨.builtin, some schema, true⟩
    (like "name" (.string "J*n (*")).HasText ctx "(cn=J*n \\28*)"
      ∧ ∃ (raw : RawValue) (value : List Char) (pieces : List Octets),
        ctx.stored "name" (.string "J*n (*") = .ok raw
          ∧ "(cn=J*n \\28*)".toList
            = '(' :: (ctx.writtenName "name").toList ++ '=' :: value ++ [')']
          ∧ Filter.read "(cn=J*n \\28*)" = some (.item (ctx.writtenName "name") .equal pieces)
          ∧ value.count '*' + 1 = pieces.length
          ∧ (value.count '*' = "J*n (*".toList.count '*' ↔
            ¬ (ctx.StoresIdentifier "name" ∧ 0x2A ∈ raw.octets))
          ∧ ('*' ∉ "J*n (*".toList → (pieces = [raw.octets] ↔
            ¬ (ctx.StoresIdentifier "name" ∧ 0x2A ∈ raw.octets))) := by
  intro schema ctx
  have htext : (like "name" (.string "J*n (*")).HasText ctx "(cn=J*n \\28*)" :=
    hasText_of_run (by decide +kernel) (by decide +kernel)
  exact ⟨htext, like_wildcards .plain htext⟩

/-- A globally unique identifier without asterisks is written with a wildcard, one of its octets
being an asterisk. -/
theorem not_every_wildcard_asked :
    ¬ ∀ (ctx : Context) (name p t : String), ctx.registry.Standard →
      (like name (.string p)).HasText ctx t →
      ∃ value : List Char, t.toList = '(' :: (ctx.writtenName name).toList ++ '=' :: value ++ [')']
        ∧ value.count '*' = p.toList.count '*' := by
  intro h
  obtain ⟨value, htext, hcount⟩ := h
    ⟨.builtin, some (((ObjectSchema.ofNames "ad" "user").setAttributes
      [("guid", "objectGUID")]).setConverters [("guid", "windows_guid")]), true⟩
    "guid" "2a000000-0000-0000-0000-000000000000"
    "(objectGUID=\\00\\00\\00*\\00\\00\\00\\00\\00\\00\\00\\00\\00\\00\\00\\00)"
    .plain (hasText_of_run (by decide +kernel) (by decide +kernel))
  have hwildcards := congrArg (List.count '*') htext
  rw [List.count_append, List.count_append, List.count_cons, List.count_cons, hcount] at hwildcards
  exact absurd hwildcards (by decide)

end Expression

end DirectoryLens
