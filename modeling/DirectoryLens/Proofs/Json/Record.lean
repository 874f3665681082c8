/-
JSON values that are built and then taken for what they were built from.

* `mapM_eq_ite`: a traversal whose steps succeed under a condition;
* `numeral?_decimal`: the decimal text of an integer denotes it;
* `asUnsigned?_ofInt`: whole numbers below a bound;
* `asList?_ofList`, `asMap?_mapJson`: lists and maps, as far as what they hold is taken for itself;
* `fields?_record`: a record gives its fields in the order of their names, those that were left out
  being absent.
-/
import Mathlib.Data.List.TakeWhile
import Mathlib.Tactic
import DirectoryLens.Schema.Definition

namespace DirectoryLens

variable {α β : Type}

/-- A traversal whose steps succeed under a condition succeeds when it always holds. -/
lemma mapM_eq_ite {f : α → Option β} {g : α → β} {p : α → Prop} [DecidablePred p] :
    ∀ {as : List α}, (∀ a ∈ as, f a = if p a then some (g a) else none) →
      as.mapM f = if ∀ a ∈ as, p a then some (as.map g) else none
  | [], _ => by rw [if_pos (by simp)]; rfl
  | a :: as, h => by
      obtain ⟨ha, has⟩ := List.forall_mem_cons.mp h
      rw [List.mapM_cons, ha, mapM_eq_ite has]
      by_cases hp : p a
      · by_cases hps : ∀ b ∈ as, p b
        · rw [if_pos hp, if_pos hps, if_pos (List.forall_mem_cons.mpr ⟨hp, hps⟩)]
          rfl
        · rw [if_pos hp, if_neg hps, if_neg fun h => hps (List.forall_mem_cons.mp h).2]
          rfl
      · rw [if_neg hp, if_neg fun h => hp (List.forall_mem_cons.mp h).1]
        rfl

/-- A traversal whose steps succeed is a map. -/
lemma mapM_eq_some {f : α → Option β} {g : α → β} {as : List α}
    (h : ∀ a ∈ as, f a = some (g a)) : as.mapM f = some (as.map g) := by
  rw [mapM_eq_ite (p := fun _ => True) fun a ha => (h a ha).trans (if_pos trivial).symm,
    if_pos fun _ _ => trivial]

namespace Json

/-! ### Numbers -/

/-- A run that lacks a character is taken whole up to it. -/
lemma takeWhile_ne_eq_self {c : Char} {s : List Char} (h : c ∉ s) :
    s.takeWhile (· != c) = s ∧ s.dropWhile (· != c) = [] := by
  have hall : ∀ d ∈ s, (d != c) = true := fun d hd => bne_iff_ne.mpr fun heq => h (heq ▸ hd)
  exact ⟨List.takeWhile_eq_self_iff.mpr hall, List.dropWhile_eq_nil_iff.mpr hall⟩

/-- The decimal text of an integer is a sign at most, and digits. -/
lemma ofText_decimal (n : Int) : Lexeme.ofText (Number.decimal n)
    = ⟨decide (n < 0), Number.digits n.natAbs, none, none⟩ := by
  have hdigits : ∀ c : Char, c.isDigit = false → c ∉ Number.digits n.natAbs := by
    intro c hc hmem
    rw [Number.isDigit_of_mem_digits hmem] at hc
    cases hc
  obtain ⟨htake, hdrop⟩ := takeWhile_ne_eq_self (hdigits 'e' rfl)
  obtain ⟨hwhole, hfraction⟩ := takeWhile_ne_eq_self (hdigits '.' rfl)
  have hhead : ((Number.digits n.natAbs).head? == some '-') = false := by
    rw [beq_eq_false_iff_ne]
    exact fun heq => hdigits '-' rfl (List.mem_of_head? heq)
  rw [Lexeme.ofText, Number.decimal, String.toList_ofList, Number.decimalChars]
  by_cases hn : n < 0
  · simp only [List.head?_cons, beq_self_eq_true, if_true, List.drop_succ_cons, List.drop_zero,
      htake, hdrop, hwhole, hfraction, hn, decide_true]
    rfl
  · simp only [hhead, Bool.false_eq_true, if_false, htake, hdrop, hwhole, hfraction, hn,
      decide_false]
    rfl

/-- The decimal text of an integer denotes it, as long as it fits. -/
lemma numeral?_decimal {n : Int} (hlow : -0x8000_0000_0000_0000 ≤ n)
    (hhigh : n < 0x1_0000_0000_0000_0000) :
    (Lexeme.ofText (Number.decimal n)).numeral? = some (.integer n) := by
  have hvalue : Nat.ofDigitChars 10 (Number.digits n.natAbs) 0 = n.natAbs := by
    rw [Number.digits, Nat.ofDigitChars_ten_toDigits]
  rw [ofText_decimal, Lexeme.numeral?, hvalue]
  by_cases hn : n < 0
  · have hle : n.natAbs ≤ 0x8000_0000_0000_0000 := by omega
    have hne : n.natAbs ≠ 0 := by omega
    have hneg : (-(n.natAbs : Int)) = n := by omega
    simp only [hn, hle, hne, hneg, Option.isNone_none, decide_true, Bool.not_true, Bool.and_false,
      Bool.false_and, Bool.false_eq_true, if_false, Bool.and_self, ne_eq, not_false_eq_true,
      if_true]
  · have hlt : n.natAbs < 0x1_0000_0000_0000_0000 := by omega
    have hpos : (n.natAbs : Int) = n := by omega
    simp only [hn, hlt, hpos, Option.isNone_none, decide_true, decide_false, Bool.not_false,
      Bool.and_self, if_true]

/-- An integer that fits is taken for a whole number below a bound when it is one. -/
lemma asUnsigned?_ofInt {n : Int} (hlow : -0x8000_0000_0000_0000 ≤ n)
    (hhigh : n < 0x1_0000_0000_0000_0000) (bound : Nat) :
    (ofInt n).asUnsigned? bound = if 0 ≤ n ∧ n < bound then some n.toNat else none := by
  rw [asUnsigned?, ofInt, asNumeral?, numeral?_decimal hlow hhigh]
  simp

/-! ### Lists and maps -/

/-- A list is taken for itself when what it holds is. -/
lemma asList?_ofList {f : α → Json} {g : Json → Option α} (h : ∀ a, g (f a) = some a)
    (as : List α) : (ofList f as).asList? g = some as := by
  have hstep : ∀ a ∈ as, (g ∘ f) a = some (id a) := fun a _ => h a
  rw [ofList, asList?, List.mapM_map, mapM_eq_some hstep, List.map_id]

/-- A list of texts is taken for itself. -/
@[simp] lemma asTexts?_textsJson (ts : List String) :
    (SchemaDefinition.textsJson ts).asTexts? = some ts :=
  asList?_ofList (f := ofString) (fun _ => rfl) ts

/-- Octets are taken for themselves. -/
@[simp] lemma asOctets?_json (bs : Octets) : bs.json.asOctets? = some bs := by
  refine asList?_ofList (fun b => ?_) bs
  have hlt := b.toNat_lt
  rw [asUnsigned?_ofInt (by omega) (by omega), if_pos ⟨by omega, by omega⟩, Int.toNat_natCast,
    Option.map_some, UInt8.ofNat_toNat]

/-- The members of a map are taken one by one. -/
lemma asMap?_mapJson {f : α → Json} {g : Json → Option β} {k : α → β} {p : α → Prop}
    [DecidablePred p] {m : OrderedMap α}
    (h : ∀ q ∈ m.toList, g (f q.2) = if p q.2 then some (k q.2) else none) :
    (SchemaDefinition.mapJson f m).asMap? g
      = if ∀ q ∈ m.toList, p q.2 then some (m.toList.map fun q => (q.1, k q.2)) else none := by
  rw [SchemaDefinition.mapJson, record, asMap?, List.map_map, List.mapM_map]
  refine mapM_eq_ite fun q hq => ?_
  rw [Function.comp_apply, Function.comp_apply, h q hq]
  split <;> rfl

/-! ### Records -/

/-- The members of a record of which some may be left out. -/
def given (fields : List (String × Option Json)) : List (String × Json) :=
  fields.filterMap fun f => f.2.map (f.1, ·)

/-- A field is given when it is not left out. -/
@[simp] lemma given_cons (name : String) (value : Option Json)
    (fields : List (String × Option Json)) :
    given ((name, value) :: fields) = value.toList.map (name, ·) ++ given fields := by
  cases value <;> rfl

/-- The member of a name is the one that is given under it. -/
lemma filter_given {fields : List (String × Option Json)} (h : (fields.map (·.1)).Nodup)
    {f : String × Option Json} (hf : f ∈ fields) :
    (given fields).filter (·.1 == f.1) = f.2.toList.map (f.1, ·) := by
  induction fields with
  | nil => cases hf
  | cons q fields ih =>
      rw [List.map_cons, List.nodup_cons] at h
      rw [given_cons q.1 q.2 fields, List.filter_append]
      rcases List.mem_cons.mp hf with rfl | hf
      · have hrest : (given fields).filter (·.1 == f.1) = [] := by
          rw [List.filter_eq_nil_iff]
          intro m hm heq
          obtain ⟨q, hq, hqm⟩ := List.mem_filterMap.mp hm
          obtain ⟨j, -, rfl⟩ := Option.map_eq_some_iff.mp hqm
          exact h.1 (beq_iff_eq.mp heq ▸ List.mem_map_of_mem hq)
        have hself : (f.2.toList.map (f.1, ·)).filter (·.1 == f.1) = f.2.toList.map (f.1, ·) := by
          rw [List.filter_eq_self]
          intro m hm
          obtain ⟨j, -, rfl⟩ := List.mem_map.mp hm
          exact beq_self_eq_true _
        rw [hself, hrest, List.append_nil]
      · have hfirst : (q.2.toList.map (q.1, ·)).filter (·.1 == f.1) = [] := by
          rw [List.filter_eq_nil_iff]
          intro m hm heq
          obtain ⟨j, -, rfl⟩ := List.mem_map.mp hm
          exact h.1 (beq_iff_eq.mp heq ▸ List.mem_map_of_mem hf)
        rw [hfirst, ih h.2 hf, List.nil_append]

/-- **A record gives its fields** in the order of their names; those that were left out are
absent. -/
theorem fields?_record {fields : List (String × Option Json)} (h : (fields.map (·.1)).Nodup) :
    (record (given fields)).fields? (fields.map (·.1)) = some (fields.map (·.2)) := by
  have hmember : ∀ f ∈ fields,
      member? f.1 ((given fields).map fun m => (some m.1, m.2)) = some f.2 := by
    intro f hf
    have hfilter : ((given fields).map fun m => (some m.1, m.2)).filter (·.1 == some f.1)
        = f.2.toList.map fun j => (some f.1, j) := by
      have hcongr : ((fun q : Option String × Json => q.1 == some f.1) ∘ fun m : String × Json =>
          (some m.1, m.2)) = fun m => m.1 == f.1 := funext fun m => rfl
      rw [List.filter_map, hcongr, filter_given h hf, List.map_map]
      rfl
    rw [member?, hfilter]
    cases f.2 <;> rfl
  have hnames : ((given fields).map fun m => (some m.1, m.2)).all (·.1.isSome) = true := by
    simp
  rw [record, Json.fields?, if_pos hnames, List.mapM_map]
  exact mapM_eq_some hmember

end Json

end DirectoryLens
