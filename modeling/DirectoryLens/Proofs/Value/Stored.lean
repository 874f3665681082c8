/-
Values that are written as JSON and read again.

* `Value.norm`: what a value is read as: a date-time as its text, an array of octets as these;
* `Value.nesting`: in how many containers a value's parts lie;
* `Value.ReadsBack`: a double is read as what it was written for;
* `Value.ofJson?_json`: a value is read as its norm, unless it is nested too deep;
* `Value.Plain`, `Value.norm_eq_self_iff`: the values that are read as themselves.
-/
import DirectoryLens.Proofs.Json.Record

namespace DirectoryLens.Value

/-! ### What values are read as -/

/-- The octet that an integer is. -/
def octet? : Value → Option UInt8
  | .integer n => if 0 ≤ n.toInt ∧ n.toInt < 256 then some (UInt8.ofNat n.toInt.toNat) else none
  | _ => none

mutual

/-- What a value is read as: a date-time is a string, and integers that are all octets, or none at
all, are octets. -/
def norm : Value → Value
  | .dateTime t => .string t.timestamp
  | .array vs => match vs.mapM octet? with
    | some bs => .binary bs
    | none => .array (normAll vs)
  | v => v

/-- What values are read as, one by one. -/
def normAll : List Value → List Value
  | [] => []
  | v :: vs => norm v :: normAll vs

end

mutual

/-- The number of containers that lie in one another. -/
def nesting : Value → Nat
  | .binary _ => 1
  | .array vs => nestingAll vs + 1
  | _ => 0

/-- The greatest nesting of several values. -/
def nestingAll : List Value → Nat
  | [] => 0
  | v :: vs => max (nesting v) (nestingAll vs)

end

mutual

/-- The doubles of a value. -/
def floats : Value → List Binary64
  | .float x => [x]
  | .array vs => floatsAll vs
  | _ => []

/-- The doubles of several values. -/
def floatsAll : List Value → List Binary64
  | [] => []
  | v :: vs => floats v ++ floatsAll vs

end

/-- A double is read as what it was written for. -/
def ReadsBack (x : Binary64) : Prop :=
  (Json.Lexeme.ofText (jsonFloat.write x)).numeral? = some (.double x)

instance (x : Binary64) : Decidable (ReadsBack x) :=
  inferInstanceAs (Decidable (_ = _))

/-! ### Reading -/

/-- A value is taken for an octet when it is one. -/
lemma asUnsigned?_json {v : Value} (h : ∀ x ∈ v.floats, ReadsBack x) :
    (v.json.asUnsigned? 256).map UInt8.ofNat = v.octet? := by
  cases v with
  | integer n =>
      have hlow := n.le_toInt
      have hhigh := n.toInt_lt
      rw [json, Json.asUnsigned?_ofInt (by omega) (by omega), octet?, Nat.cast_ofNat,
        apply_ite (Option.map UInt8.ofNat), Option.map_some, Option.map_none]
  | float x =>
      have hx : ReadsBack x := h x (by rw [floats]; exact List.mem_singleton_self x)
      rw [json, Json.asUnsigned?, Json.asNumeral?, hx]
      rfl
  | null | string | boolean | dateTime | binary | array =>
      rw [json]
      rfl

/-- Values are taken for octets when they all are. -/
lemma asOctets?_jsonList : ∀ {vs : List Value}, (∀ x ∈ floatsAll vs, ReadsBack x) →
    (Json.array (jsonList vs)).asOctets? = vs.mapM octet?
  | [], _ => by
      rw [jsonList]
      rfl
  | v :: vs, h => by
      rw [floatsAll, List.forall_mem_append] at h
      have hrest := asOctets?_jsonList h.2
      rw [Json.asOctets?, Json.asList?] at hrest ⊢
      rw [jsonList, List.mapM_cons, List.mapM_cons, asUnsigned?_json h.1, hrest]

/-- Octets lie in no containers of their own. -/
lemma nestingAll_of_mapM_octet? : ∀ {vs : List Value} {bs : Octets},
    vs.mapM octet? = some bs → nestingAll vs = 0
  | [], _, _ => by rw [nestingAll]
  | v :: vs, bs, h => by
      rw [List.mapM_cons] at h
      obtain ⟨b, hb, h⟩ := Option.bind_eq_some_iff.mp h
      obtain ⟨bs', hbs, -⟩ := Option.bind_eq_some_iff.mp h
      have hv : v.nesting = 0 := by
        cases v with
        | integer n => simp [nesting]
        | null | string | boolean | float | dateTime | binary | array => cases hb
      rw [nestingAll, hv, nestingAll_of_mapM_octet? hbs, Nat.max_self]

/-- What has no parts is read at any depth. -/
lemma eq_ite_of_nesting_eq_zero {v w : Value} {read : Option Value} (hv : v.nesting = 0)
    (h : read = some w) (depth : Nat) : read = if v.nesting ≤ depth then some w else none := by
  rw [h, if_pos (hv ▸ Nat.zero_le depth)]

mutual

/-- **A value is read as its norm**, unless it is nested too deep. -/
theorem ofJson?_json : ∀ (v : Value) (depth : Nat), (∀ x ∈ v.floats, ReadsBack x) →
    ofJson? depth v.json = if v.nesting ≤ depth then some v.norm else none
  | .null, depth, _ => eq_ite_of_nesting_eq_zero (by simp [nesting])
      (by simp [json, ofJson?, norm]) depth
  | .string s, depth, _ => eq_ite_of_nesting_eq_zero (by simp [nesting])
      (by simp [json, Json.ofString, ofJson?, norm]) depth
  | .boolean b, depth, _ => eq_ite_of_nesting_eq_zero (by simp [nesting])
      (by simp [json, ofJson?, norm]) depth
  | .dateTime t, depth, _ => eq_ite_of_nesting_eq_zero (by simp [nesting])
      (by simp [json, Json.ofString, ofJson?, norm]) depth
  | .integer n, depth, _ => by
      have hlow := n.le_toInt
      have hhigh := n.toInt_lt
      have hnumeral := Json.numeral?_decimal (n := n.toInt) (by omega) (by omega)
      refine eq_ite_of_nesting_eq_zero (by simp [nesting]) ?_ depth
      rw [json, Json.ofInt, ofJson?, hnumeral]
      simp [norm]
  | .float x, depth, h => by
      have hx : ReadsBack x := h x (by rw [floats]; exact List.mem_singleton_self x)
      refine eq_ite_of_nesting_eq_zero (by simp [nesting]) ?_ depth
      rw [json, ofJson?, hx]
      simp [norm]
  | .binary bs, depth, _ => by
      cases depth with
      | zero => simp [json, Octets.json, Json.ofList, ofJson?, nesting]
      | succ depth =>
          have hoctets := Json.asOctets?_json bs
          rw [Octets.json, Json.ofList] at hoctets
          rw [json, Octets.json, Json.ofList, ofJson?, hoctets]
          simp [nesting, norm]
  | .array vs, depth, h => by
      rw [floats] at h
      cases depth with
      | zero => simp [json, ofJson?, nesting]
      | succ depth =>
          rw [json, ofJson?, asOctets?_jsonList h, norm, nesting]
          cases hoctets : vs.mapM octet? with
          | some bs =>
              rw [nestingAll_of_mapM_octet? hoctets, if_pos (by omega)]
          | none =>
              rw [ofJsonList?_jsonList vs depth h]
              by_cases hdepth : nestingAll vs ≤ depth
              · rw [if_pos hdepth, if_pos (by omega)]
                rfl
              · rw [if_neg hdepth, if_neg (by omega)]
                rfl

/-- Values are read as their norms, unless one is nested too deep. -/
theorem ofJsonList?_jsonList : ∀ (vs : List Value) (depth : Nat),
    (∀ x ∈ floatsAll vs, ReadsBack x) →
    ofJsonList? depth (jsonList vs)
      = if nestingAll vs ≤ depth then some (normAll vs) else none
  | [], depth, _ => by
      rw [jsonList, ofJsonList?, nestingAll, if_pos (Nat.zero_le depth), normAll]
  | v :: vs, depth, h => by
      rw [floatsAll, List.forall_mem_append] at h
      rw [jsonList, ofJsonList?, ofJson?_json v depth h.1, ofJsonList?_jsonList vs depth h.2,
        nestingAll, normAll]
      by_cases hv : v.nesting ≤ depth
      · by_cases hvs : nestingAll vs ≤ depth
        · rw [if_pos hv, if_pos hvs, if_pos (max_le hv hvs)]
          rfl
        · rw [if_pos hv, if_neg hvs, if_neg fun h => hvs (le_of_max_le_right h)]
          rfl
      · rw [if_neg hv, if_neg fun h => hv (le_of_max_le_left h)]
        rfl

end

/-! ### What is read as itself -/

mutual

/-- A value with neither date-times nor arrays of octets alone, so that reading finds each part as
what it is. -/
def Plain : Value → Prop
  | .dateTime _ => False
  | .array vs => (∃ v ∈ vs, v.octet? = none) ∧ PlainAll vs
  | _ => True

/-- Values that are plain. -/
def PlainAll : List Value → Prop
  | [] => True
  | v :: vs => Plain v ∧ PlainAll vs

end

/-- Values are not octets when one of them is none. -/
lemma mapM_octet?_eq_none_iff : ∀ {vs : List Value},
    vs.mapM octet? = none ↔ ∃ v ∈ vs, v.octet? = none
  | [] => by simp
  | v :: vs => by
      rw [List.mapM_cons, List.exists_mem_cons_iff, ← mapM_octet?_eq_none_iff]
      cases hv : v.octet? with
      | none => simp
      | some b =>
          cases hvs : vs.mapM octet? with
          | none => simp
          | some bs => simp

mutual

/-- **A value is its own norm when it is plain.** -/
theorem norm_eq_self_iff : ∀ v : Value, v.norm = v ↔ v.Plain
  | .null | .string _ | .integer _ | .boolean _ | .float _ | .binary _ => by simp [norm, Plain]
  | .dateTime t => by simp [norm, Plain]
  | .array vs => by
      rw [norm, Plain, ← mapM_octet?_eq_none_iff, ← normAll_eq_self_iff vs]
      cases vs.mapM octet? with
      | none => simp
      | some bs => simp

/-- Values are their own norms when they are plain. -/
theorem normAll_eq_self_iff : ∀ vs : List Value, normAll vs = vs ↔ PlainAll vs
  | [] => by simp [normAll, PlainAll]
  | v :: vs => by
      rw [normAll, PlainAll, List.cons.injEq, norm_eq_self_iff v, normAll_eq_self_iff vs]

end

end DirectoryLens.Value
