/-
Values that are written as text and read again, more than once.

* `Value.ReadsBack.isFinite`: a double that is read back is finite;
* `Value.proper_json`: a value has a text;
* `Value.json_norm`, `Value.norm_norm`: the norm of a value has its JSON, and is its own norm;
* `Value.reload`: what the text of a value is read as;
* `Value.reload_eq_ite`: this is the norm of the value, unless it is nested too deep;
* `Value.reload_stable`: a value changes when it is read for the first time at most.
-/
import DirectoryLens.Proofs.Json.Double
import DirectoryLens.Proofs.Json.Text
import DirectoryLens.Proofs.Value.Stored

namespace DirectoryLens.Value

open Json Number

/-! ### Texts -/

/-- A double that is read back is finite: the others are written as null. -/
lemma ReadsBack.isFinite {x : Binary64} (h : ReadsBack x) : x.IsFinite := by
  by_contra hx
  have hnull : jsonFloat.write x = "null" := by
    rw [Binary64.IsFinite] at hx
    rw [Layout.write, Binary64.view]
    by_cases hnan : Binary64.infinityWord < x.bits.toNat % Binary64.signSize
    · rw [if_pos hnan]
      rfl
    · rw [if_neg hnan, if_pos (by omega)]
      cases decide (Binary64.signSize ≤ x.bits.toNat) <;> rfl
  rw [ReadsBack, hnull] at h
  cases h

/-- Octets have a text. -/
lemma proper_octets_json (bs : Octets) : bs.json.Proper := by
  refine .array fun j hj => ?_
  obtain ⟨b, -, rfl⟩ := List.mem_map.mp hj
  exact .number (isLexeme_of_canonical (canonical_decimal _))

mutual

/-- A value whose doubles are read back has a text. -/
theorem proper_json : ∀ v : Value, (∀ x ∈ v.floats, ReadsBack x) → v.json.Proper
  | .null, _ => by
      rw [json]
      exact .null
  | .string s, _ => by
      rw [json]
      exact .string
  | .integer n, _ => by
      rw [json]
      exact .number (isLexeme_of_canonical (canonical_decimal _))
  | .boolean b, _ => by
      rw [json]
      exact .bool
  | .float x, h => by
      have hx : x.IsFinite := (h x (by rw [floats]; exact List.mem_singleton_self x)).isFinite
      have hmark : IsFraction jsonFloat.wholeMark.toList := .given isRun_zero
      rw [json]
      exact .number (Layout.isLexeme_write hmark hx)
  | .dateTime t, _ => by
      rw [json]
      exact .string
  | .binary bs, _ => by
      rw [json]
      exact proper_octets_json bs
  | .array vs, h => by
      rw [floats] at h
      rw [json]
      exact .array (proper_jsonList vs h)

/-- Values whose doubles are read back have texts. -/
theorem proper_jsonList : ∀ vs : List Value, (∀ x ∈ floatsAll vs, ReadsBack x) →
    ∀ j ∈ jsonList vs, j.Proper
  | [], _ => by
      rw [jsonList]
      nofun
  | v :: vs, h => by
      rw [floatsAll, List.forall_mem_append] at h
      rw [jsonList]
      exact List.forall_mem_cons.mpr ⟨proper_json v h.1, proper_jsonList vs h.2⟩

end

/-! ### Norms -/

/-- An integer that is an octet is written as this is. -/
lemma json_of_octet? {v : Value} {b : UInt8} (h : v.octet? = some b) :
    v.json = Json.ofInt b.toNat := by
  cases v with
  | integer n =>
      rw [octet?] at h
      split_ifs at h with hn
      obtain rfl := Option.some.inj h
      have hlt : n.toInt.toNat < UInt8.size := (Int.toNat_lt hn.1).mpr hn.2
      rw [json, UInt8.toNat_ofNat_of_lt' hlt, Int.toNat_of_nonneg hn.1]
  | null | string | boolean | float | dateTime | binary | array => cases h

/-- Integers that are octets are written as these are. -/
lemma jsonList_of_mapM_octet? : ∀ {vs : List Value} {bs : Octets}, vs.mapM octet? = some bs →
    jsonList vs = bs.map fun b => Json.ofInt b.toNat
  | [], bs, h => by
      obtain rfl := Option.some.inj h
      rw [jsonList]
      rfl
  | v :: vs, bs, h => by
      rw [List.mapM_cons] at h
      obtain ⟨b, hb, h⟩ := Option.bind_eq_some_iff.mp h
      obtain ⟨bs', hbs, h⟩ := Option.bind_eq_some_iff.mp h
      obtain rfl := Option.some.inj h
      rw [jsonList, json_of_octet? hb, jsonList_of_mapM_octet? hbs, List.map_cons]

/-- What is read is an octet when it was one before. -/
@[simp] lemma octet?_norm (v : Value) : v.norm.octet? = v.octet? := by
  cases v with
  | array vs =>
      rw [norm]
      cases vs.mapM octet? <;> rfl
  | null | string | integer | boolean | float | dateTime | binary => simp [norm, octet?]

/-- What are read are octets when they were before. -/
@[simp] lemma mapM_octet?_normAll (vs : List Value) :
    (normAll vs).mapM octet? = vs.mapM octet? := by
  induction vs with
  | nil => rw [normAll]
  | cons v vs ih => simp [normAll, ih]

mutual

/-- **What a value is read as has its JSON.** -/
theorem json_norm : ∀ v : Value, v.norm.json = v.json
  | .null | .string _ | .integer _ | .boolean _ | .float _ | .binary _ => by simp [norm]
  | .dateTime t => by simp [norm, json]
  | .array vs => by
      rw [norm, json]
      cases hoctets : vs.mapM octet? with
      | some bs => rw [json, Octets.json, Json.ofList, jsonList_of_mapM_octet? hoctets]
      | none => rw [json, jsonList_normAll vs]

/-- What values are read as has their JSON. -/
theorem jsonList_normAll : ∀ vs : List Value, jsonList (normAll vs) = jsonList vs
  | [] => by rw [normAll]
  | v :: vs => by rw [normAll, jsonList, jsonList, json_norm v, jsonList_normAll vs]

end

mutual

/-- **What a value is read as is its own norm.** -/
theorem norm_norm : ∀ v : Value, v.norm.norm = v.norm
  | .null | .string _ | .integer _ | .boolean _ | .float _ | .binary _ => by simp [norm]
  | .dateTime t => by simp [norm]
  | .array vs => by
      rw [norm]
      cases hoctets : vs.mapM octet? with
      | some bs => simp [norm]
      | none =>
          have hnorm : (normAll vs).mapM octet? = none := (mapM_octet?_normAll vs).trans hoctets
          show norm (.array (normAll vs)) = .array (normAll vs)
          rw [norm, hnorm, normAll_normAll vs]

/-- What values are read as are their own norms. -/
theorem normAll_normAll : ∀ vs : List Value, normAll (normAll vs) = normAll vs
  | [] => by rw [normAll, normAll]
  | v :: vs => by rw [normAll, normAll, norm_norm v, normAll_normAll vs]

end

/-! ### Reloading -/

/-- The value that the text of a value is read as. -/
def reload (v : Value) : Option Value :=
  (Json.ofText? v.json.write).bind (ofJson? maxDepth)

variable {v : Value}

/-- A value is reloaded as its norm, unless it is nested too deep. -/
lemma reload_eq_ite (h : ∀ x ∈ v.floats, ReadsBack x) :
    v.reload = if v.nesting ≤ maxDepth then some v.norm else none := by
  rw [reload, ofText?_write (proper_json v h), Option.bind_some, ofJson?_json v maxDepth h]

/-- A norm is reloaded as its value is. -/
lemma reload_norm (v : Value) : v.norm.reload = v.reload := by
  rw [reload, json_norm, reload]

/-- What a value is reloaded as is reloaded as itself. -/
lemma bind_reload (h : ∀ x ∈ v.floats, ReadsBack x) : v.reload.bind reload = v.reload := by
  rw [reload_eq_ite h]
  split_ifs with hdepth
  · rw [Option.bind_some, reload_norm, reload_eq_ite h, if_pos hdepth]
  · rfl

/-- **Values reload to a stable normal form.** When its doubles are read back, the text of a value
is read as the norm of the value, unless it is nested too deep. The norm has the same text and is
its own norm, so that a value read again and again is what it was when it was read first. -/
theorem reload_stable (v : Value) (h : ∀ x ∈ v.floats, ReadsBack x) :
    v.reload = (if v.nesting ≤ maxDepth then some v.norm else none)
      ∧ v.norm.json.write = v.json.write
      ∧ v.norm.norm = v.norm
      ∧ ∀ n, (fun read => read.bind reload)^[n + 1] (some v) = v.reload := by
  refine ⟨reload_eq_ite h, by rw [json_norm], norm_norm v, fun n => ?_⟩
  induction n with
  | zero => rfl
  | succ n ih => rw [Function.iterate_succ_apply', ih, bind_reload h]

/-- A date-time, octets as integers, a list of nothing, and doubles beside an integer that is no
octet. -/
def mixed : Value :=
  .array [.null, .dateTime ⟨951782400, 500000000, by decide⟩, .array [.integer 0, .integer 255],
    .array [], .array [.integer 256, .float ⟨0x3FF8000000000000⟩, .float ⟨0xBE112E0BE826D695⟩]]

/-- Its date-time is read as a string, and its lists as octets where they can be. -/
theorem reload_stable_mixed :
    (∀ x ∈ mixed.floats, ReadsBack x)
      ∧ mixed.reload = some (.array [.null, .string "2000-02-29T00:00:00.500Z", .binary [0, 255],
        .binary [], .array [.integer 256, .float ⟨0x3FF8000000000000⟩,
          .float ⟨0xBE112E0BE826D695⟩]])
      ∧ mixed.norm.json.write = mixed.json.write := by
  have hread : ∀ x ∈ mixed.floats, ReadsBack x := by decide +kernel
  obtain ⟨hreload, hwrite, -⟩ := reload_stable mixed hread
  refine ⟨hread, hreload.trans ?_, hwrite⟩
  have hnesting : mixed.nesting ≤ maxDepth := by decide +kernel
  rw [if_pos hnesting]
  rfl

end DirectoryLens.Value
