/-
Which attribute of an entry serves which of the names that are asked for.

* `distinctNames`: names without those that fold like an earlier one;
* `ObjectSchema.Matches`, `ObjectSchema.source?`: an attribute stands for a name, by its own name
  or by one mapped to it, and the first one that does;
* `offers`: what the attributes of an entry offer, one name after another;
* `assigned`: each name that is asked for, with the first that is offered under it;
* `mem_assigned`, `pairwise_assigned`: what is assigned, and in which order;
* `ObjectSchema.Precedes`, `ObjectSchema.precedes_of_findIdx_offers_lt`: that order, said of the
  attributes and of the names that each of them serves;
* `Projection.Keyed.claimAll`: claims are assignments to the names still missing.

The invariant of a projection is that the key of a wanted name is its folded form
(`Projection.Keyed`); its state is then no more than the list of the names still missing.
-/
import Mathlib.Tactic
import DirectoryLens.Entry.Hydration

namespace DirectoryLens

open Text

variable {α : Type}

/-! ### Names asked for -/

/-- Names without those that fold like an earlier one. -/
def distinctNames : List String → List String
  | [] => []
  | r :: rest => r :: (distinctNames rest).filter fun q => fold q ≠ fold r

/-- The names that no name of a list folds like. -/
def remaining (asked names : List String) : List String :=
  asked.filter fun r => fold r ∉ names.map fold

/-- Distinct names are among those given. -/
lemma mem_of_mem_distinctNames : ∀ {names : List String} {r : String},
    r ∈ distinctNames names → r ∈ names
  | q :: rest, r, h => by
      rw [distinctNames, List.mem_cons] at h
      rcases h with rfl | h
      · exact List.mem_cons_self
      · exact List.mem_cons_of_mem q (mem_of_mem_distinctNames (List.mem_of_mem_filter h))

/-- Every name given folds like one of the distinct names. -/
lemma exists_mem_distinctNames : ∀ {names : List String} {r : String}, r ∈ names →
    ∃ q ∈ distinctNames names, fold q = fold r
  | n :: rest, r, h => by
      by_cases hn : fold r = fold n
      · exact ⟨n, by rw [distinctNames]; exact List.mem_cons_self, hn.symm⟩
      · obtain ⟨q, hq, hqr⟩ := exists_mem_distinctNames
          ((List.mem_cons.mp h).resolve_left fun heq => hn (heq ▸ rfl))
        refine ⟨q, ?_, hqr⟩
        rw [distinctNames, List.mem_cons, List.mem_filter, decide_eq_true_eq]
        exact .inr ⟨hq, fun hqn => hn (hqr.symm.trans hqn)⟩

/-- Distinct names differ beyond their case. -/
lemma pairwise_distinctNames : ∀ names : List String,
    (distinctNames names).Pairwise fun q r => fold q ≠ fold r
  | [] => .nil
  | n :: rest => by
      rw [distinctNames]
      refine .cons (fun q hq => ?_) ((pairwise_distinctNames rest).filter _)
      have hne := (List.mem_filter.mp hq).2
      rw [decide_eq_true_eq] at hne
      exact hne.symm

/-- The first of the distinct names that fold to a key is the first name that does. -/
lemma find?_distinctNames (k : String) : ∀ names : List String,
    (distinctNames names).find? (fun r => fold r == k) = names.find? fun r => fold r == k
  | [] => rfl
  | n :: rest => by
      rw [distinctNames, List.find?_cons, List.find?_cons, List.find?_filter]
      cases hn : fold n == k with
      | true => rfl
      | false =>
          rw [← find?_distinctNames k rest]
          refine List.find?_congr fun r _ => ?_
          rw [Bool.eq_iff_iff, decide_eq_true_eq, decide_eq_true_eq, beq_iff_eq]
          refine ⟨fun h => h.2, fun h => ⟨fun hrn => ?_, h⟩⟩
          exact beq_eq_false_iff_ne.mp hn (hrn.symm.trans h)

/-! ### Offers -/

namespace ObjectSchema

/-- The names that an attribute serves: those mapped to its own name, and then that itself. -/
def namesServed (s : ObjectSchema) (d : String) : List String :=
  s.namesMappedTo d ++ [d]

/-- An attribute stands for a name: its own name or one mapped to it folds alike. -/
def Matches (s : ObjectSchema) (d r : String) : Prop :=
  fold d = fold r ∨ ∃ n ∈ s.namesMappedTo d, fold n = fold r

instance (s : ObjectSchema) (d r : String) : Decidable (s.Matches d r) :=
  inferInstanceAs (Decidable (_ ∨ _))

/-- An attribute stands for the names that fold like those it serves. -/
lemma matches_iff {s : ObjectSchema} {d r : String} :
    s.Matches d r ↔ ∃ n ∈ s.namesServed d, fold n = fold r := by
  simp only [Matches, namesServed, List.mem_append, List.mem_singleton]
  constructor
  · rintro (h | ⟨n, hn, h⟩)
    · exact ⟨d, .inr rfl, h⟩
    · exact ⟨n, .inl hn, h⟩
  · rintro ⟨n, hn | rfl, h⟩
    · exact .inr ⟨n, hn, h⟩
    · exact .inl h

/-- The first attribute of an entry that stands for a name. -/
def source? (s : ObjectSchema) (attributes : List (String × α)) (r : String) :
    Option (String × α) :=
  attributes.find? fun p => s.Matches p.1 r

/-- There is a first attribute that stands for a name when there is one at all. -/
@[simp] lemma source?_ne_none {s : ObjectSchema} {attributes : List (String × α)} {r : String} :
    s.source? attributes r ≠ none ↔ ∃ p ∈ attributes, s.Matches p.1 r := by
  rw [source?, Option.ne_none_iff_isSome, List.find?_isSome]
  simp only [decide_eq_true_eq]

end ObjectSchema

/-- What the attributes of an entry offer, one after another, under the names that each serves. -/
def offers (s : ObjectSchema) (attributes : List (String × α)) : List (String × α) :=
  attributes.flatMap fun p => (s.namesServed p.1).map fun n => (n, p.2)

/-- An offer is made under a name that folds like the given one. -/
def isFor (r : String) (o : String × α) : Bool :=
  fold o.1 == fold r

/-- The names an attribute serves offer the first that folds like the given one. -/
lemma find?_isFor_map (r : String) (a : α) (names : List String) :
    ((names.map fun n => (n, a)).find? (isFor r)).map (·.2)
      = if ∃ n ∈ names, fold n = fold r then some a else none := by
  induction names with
  | nil => simp
  | cons n names ih =>
      by_cases h : fold n = fold r
      · simp [isFor, h]
      · have hne : (fold n == fold r) = false := beq_eq_false_iff_ne.mpr h
        simp only [List.map_cons, List.find?_cons, isFor, hne]
        rw [ih]
        simp [h]

/-- The first offer for a name is that of the first attribute that stands for it. -/
lemma find?_offers (s : ObjectSchema) (r : String) (attributes : List (String × α)) :
    ((offers s attributes).find? (isFor r)).map (·.2)
      = (s.source? attributes r).map (·.2) := by
  induction attributes with
  | nil => rfl
  | cons p attributes ih =>
      have hfirst := find?_isFor_map r p.2 (s.namesServed p.1)
      rw [offers, List.flatMap_cons, List.find?_append, ← offers,
        ObjectSchema.source?, List.find?_cons, ← ObjectSchema.source?]
      by_cases h : s.Matches p.1 r
      · rw [if_pos (ObjectSchema.matches_iff.mp h)] at hfirst
        obtain ⟨o, ho, hvalue⟩ := Option.map_eq_some_iff.mp hfirst
        simp [ho, h, hvalue]
      · rw [if_neg fun hn => h (ObjectSchema.matches_iff.mpr hn), Option.map_eq_none_iff] at hfirst
        simp [hfirst, h, ih]

/-! ### Assignments -/

/-- Offers assigned to the names that are asked for: each goes to a name that folds like its own,
which is then asked for no more. -/
def assigned : List String → List (String × α) → List (String × α)
  | _, [] => []
  | asked, (n, a) :: rest =>
    match asked.find? fun r => fold r == fold n with
    | some r => (r, a) :: assigned (remaining asked [n]) rest
    | none => assigned asked rest

/-- A name is asked for no more when it folds like one that was given. -/
@[simp] lemma mem_remaining {asked names : List String} {r : String} :
    r ∈ remaining asked names ↔ r ∈ asked ∧ ∀ n ∈ names, fold n ≠ fold r := by
  simp [remaining]

/-- Names are given one after another. -/
lemma remaining_remaining (asked names names' : List String) :
    remaining (remaining asked names) names' = remaining asked (names ++ names') := by
  rw [remaining, remaining, remaining, List.filter_filter]
  refine List.filter_congr fun r _ => ?_
  simp only [List.map_append, List.mem_append, not_or, Bool.decide_and, Bool.and_comm]

/-- No name is asked for less when none of those that are given is asked for. -/
lemma remaining_eq_self {asked : List String} {n : String}
    (h : asked.find? (fun r => fold r == fold n) = none) : remaining asked [n] = asked := by
  rw [remaining, List.filter_eq_self]
  intro r hr
  have hne := List.find?_eq_none.mp h r hr
  simpa using hne

/-- Offers are assigned one after another. -/
lemma assigned_append (offers offers' : List (String × α)) : ∀ asked : List String,
    assigned asked (offers ++ offers')
      = assigned asked offers ++ assigned (remaining asked (offers.map (·.1))) offers' := by
  induction offers with
  | nil =>
      intro asked
      simp [assigned, remaining]
  | cons o offers ih =>
      intro asked
      obtain ⟨n, a⟩ := o
      have hsplit : remaining asked (((n, a) :: offers).map (·.1))
          = remaining (remaining asked [n]) (offers.map (·.1)) := by
        rw [remaining_remaining, List.map_cons, List.singleton_append]
      rw [hsplit, List.cons_append, assigned, assigned]
      cases hfind : asked.find? fun r => fold r == fold n with
      | some r => simp only [ih, List.cons_append]
      | none => simp only [ih, remaining_eq_self hfind]

/-- Distinct names that fold alike are one. -/
lemma eq_of_fold_eq {asked : List String} (h : asked.Pairwise fun q r => fold q ≠ fold r)
    {q r : String} (hq : q ∈ asked) (hr : r ∈ asked) (heq : fold q = fold r) : q = r :=
  List.inj_on_of_nodup_map (List.pairwise_map.mpr h) hq hr heq

/-- **What is assigned**: every name that is asked for gets the first that is offered for it. -/
theorem mem_assigned {r : String} {a : α} : ∀ {offers : List (String × α)} {asked : List String},
    asked.Pairwise (fun q r => fold q ≠ fold r) →
    ((r, a) ∈ assigned asked offers
      ↔ r ∈ asked ∧ (offers.find? (isFor r)).map (·.2) = some a)
  | [], asked, _ => by simp [assigned]
  | (n, b) :: offers, asked, h => by
      rw [assigned, List.find?_cons]
      cases hfind : asked.find? fun q => fold q == fold n with
      | none =>
          rw [mem_assigned h]
          refine and_congr_right fun hr => ?_
          have hrn := List.find?_eq_none.mp hfind r hr
          rw [beq_iff_eq] at hrn
          have hother : isFor r (n, b) = false := beq_eq_false_iff_ne.mpr fun heq => hrn heq.symm
          rw [hother]
      | some q =>
          have hq := List.mem_of_find?_eq_some hfind
          have hqn : fold q = fold n := by simpa using List.find?_some hfind
          have hsub : (remaining asked [n]).Pairwise fun q r => fold q ≠ fold r := h.filter _
          have hrest : (r, a) ∈ assigned (remaining asked [n]) offers
              ↔ (r ∈ asked ∧ fold n ≠ fold r) ∧ (offers.find? (isFor r)).map (·.2) = some a := by
            simp [mem_assigned hsub]
          rw [List.mem_cons, Prod.mk.injEq, hrest]
          by_cases hn : fold n = fold r
          · -- the offer is for the name, which is asked for no more behind it
            have hfor : isFor r (n, b) = true := beq_iff_eq.mpr hn
            rw [hfor, Option.map_some, Option.some.injEq]
            constructor
            · rintro (⟨rfl, rfl⟩ | ⟨⟨-, hne⟩, -⟩)
              · exact ⟨hq, rfl⟩
              · exact absurd hn hne
            · rintro ⟨hr, hb⟩
              exact .inl ⟨eq_of_fold_eq h hr hq (hn.symm.trans hqn.symm), hb.symm⟩
          · have hother : isFor r (n, b) = false := beq_eq_false_iff_ne.mpr hn
            rw [hother]
            constructor
            · rintro (⟨rfl, rfl⟩ | ⟨⟨hr, -⟩, ha⟩)
              · exact absurd hqn.symm hn
              · exact ⟨hr, ha⟩
            · rintro ⟨hr, ha⟩
              exact .inr ⟨⟨hr, hn⟩, ha⟩

/-- **The order of what is assigned** is that of the first offers. -/
theorem pairwise_assigned : ∀ {offers : List (String × α)} {asked : List String},
    asked.Pairwise (fun q r => fold q ≠ fold r) →
    (assigned asked offers).Pairwise fun p q =>
      offers.findIdx (isFor p.1) < offers.findIdx (isFor q.1)
  | [], asked, _ => by simp [assigned]
  | (n, b) :: offers, asked, h => by
      have hsub : (remaining asked [n]).Pairwise fun q r => fold q ≠ fold r := h.filter _
      have hnext : ∀ {r : String}, fold n ≠ fold r →
          ((n, b) :: offers).findIdx (isFor r) = offers.findIdx (isFor r) + 1 := by
        intro r hne
        have hfor : isFor r (n, b) = false := by simp [isFor, hne]
        rw [List.findIdx_cons, hfor]
        rfl
      rw [assigned]
      cases hfind : asked.find? fun q => fold q == fold n with
      | none =>
          have hne : ∀ {p : String × α}, p ∈ assigned asked offers → fold n ≠ fold p.1 := by
            intro p hp heq
            have := List.find?_eq_none.mp hfind p.1 ((mem_assigned h).mp hp).1
            simp [heq] at this
          refine (pairwise_assigned h).imp_of_mem fun hp hq hlt => ?_
          rw [hnext (hne hp), hnext (hne hq)]
          omega
      | some r =>
          have hrn : fold r = fold n := by simpa using List.find?_some hfind
          have hne : ∀ {p : String × α}, p ∈ assigned (remaining asked [n]) offers →
              fold n ≠ fold p.1 := by
            intro p hp
            exact (mem_remaining.mp ((mem_assigned hsub).mp hp).1).2 n (by simp)
          refine .cons (fun p hp => ?_) ((pairwise_assigned hsub).imp_of_mem fun hp hq hlt => ?_)
          · have hfor : isFor r (n, b) = true := by simp [isFor, hrn]
            rw [hnext (hne hp), List.findIdx_cons, hfor]
            simp
          · rw [hnext (hne hp), hnext (hne hq)]
            omega

/-! ### The order of attributes -/

namespace ObjectSchema

/-- The place in an entry of the first attribute that stands for a name. -/
def attributePlace (s : ObjectSchema) (attributes : List (String × α)) (r : String) : Nat :=
  attributes.findIdx fun p => s.Matches p.1 r

/-- The place of a name among those that its attribute serves. -/
def namePlace (s : ObjectSchema) (attributes : List (String × α)) (r : String) : Nat :=
  match s.source? attributes r with
  | some p => (s.namesServed p.1).findIdx fun n => fold n == fold r
  | none => 0

/-- A name comes before another: its attribute does, or the two have the same attribute, which
serves it before the other. -/
def Precedes (s : ObjectSchema) (attributes : List (String × α)) (q r : String) : Prop :=
  s.attributePlace attributes q < s.attributePlace attributes r
    ∨ s.attributePlace attributes q = s.attributePlace attributes r
      ∧ s.namePlace attributes q < s.namePlace attributes r

/-- No two names come before each other. -/
lemma Precedes.asymm {s : ObjectSchema} {attributes : List (String × α)} {q r : String}
    (hqr : s.Precedes attributes q r) : ¬ s.Precedes attributes r q := by
  rw [Precedes] at hqr ⊢
  omega

variable {s : ObjectSchema} {d r : String} (a : α) (attributes : List (String × α))

/-- A name that the first attribute serves has its place there. -/
lemma places_of_matches (h : s.Matches d r) :
    s.attributePlace ((d, a) :: attributes) r = 0
      ∧ s.namePlace ((d, a) :: attributes) r
        = (s.namesServed d).findIdx fun n => fold n == fold r := by
  constructor
  · simp [attributePlace, List.findIdx_cons, h]
  · simp [namePlace, source?, h]

/-- A name that the first attribute does not serve has its place behind it. -/
lemma places_of_not_matches (h : ¬ s.Matches d r) :
    s.attributePlace ((d, a) :: attributes) r = s.attributePlace attributes r + 1
      ∧ s.namePlace ((d, a) :: attributes) r = s.namePlace attributes r := by
  constructor
  · simp [attributePlace, List.findIdx_cons, h]
  · simp [namePlace, source?, h]

/-- The first offer for a name is among those of the first attribute if one of these is for it. -/
lemma findIdx_offers_cons (s : ObjectSchema) (d r : String) :
    (offers s ((d, a) :: attributes)).findIdx (isFor r)
      = if (s.namesServed d).findIdx (fun n => fold n == fold r) < (s.namesServed d).length
        then (s.namesServed d).findIdx (fun n => fold n == fold r)
        else (offers s attributes).findIdx (isFor r) + (s.namesServed d).length := by
  rw [offers, List.flatMap_cons, ← offers, List.findIdx_append, List.findIdx_map, List.length_map]
  rfl

/-- The first offer for a name that the first attribute serves is among its offers. -/
lemma findIdx_offers_of_matches (h : s.Matches d r) :
    (offers s ((d, a) :: attributes)).findIdx (isFor r)
        = (s.namesServed d).findIdx (fun n => fold n == fold r)
      ∧ (offers s ((d, a) :: attributes)).findIdx (isFor r) < (s.namesServed d).length := by
  obtain ⟨n, hn, hnr⟩ := matches_iff.mp h
  have hlt : (s.namesServed d).findIdx (fun n => fold n == fold r) < (s.namesServed d).length :=
    List.findIdx_lt_length_of_exists ⟨n, hn, beq_iff_eq.mpr hnr⟩
  rw [findIdx_offers_cons, if_pos hlt]
  exact ⟨rfl, hlt⟩

/-- The first offer for a name that the first attribute does not serve is behind its offers. -/
lemma findIdx_offers_of_not_matches (h : ¬ s.Matches d r) :
    (offers s ((d, a) :: attributes)).findIdx (isFor r)
      = (offers s attributes).findIdx (isFor r) + (s.namesServed d).length := by
  rw [findIdx_offers_cons, if_neg]
  intro hlt
  obtain ⟨n, hn, hnr⟩ := List.findIdx_lt_length.mp hlt
  exact h (matches_iff.mpr ⟨n, hn, beq_iff_eq.mp hnr⟩)

/-- **The order of the first offers is that of the attributes**, and within one attribute that of
the names it serves. -/
theorem precedes_of_findIdx_offers_lt {q : String} : ∀ {attributes : List (String × α)},
    (offers s attributes).findIdx (isFor q) < (offers s attributes).findIdx (isFor r) →
      s.Precedes attributes q r
  | [], h => absurd h (Nat.lt_irrefl _)
  | (d, a) :: attributes, h => by
      rw [Precedes]
      by_cases hq : s.Matches d q
      · obtain ⟨hqplace, hqname⟩ := places_of_matches a attributes hq
        obtain ⟨hqidx, -⟩ := findIdx_offers_of_matches a attributes hq
        by_cases hr : s.Matches d r
        · obtain ⟨hrplace, hrname⟩ := places_of_matches a attributes hr
          obtain ⟨hridx, -⟩ := findIdx_offers_of_matches a attributes hr
          omega
        · have hrplace := (places_of_not_matches a attributes hr).1
          omega
      · have hqidx := findIdx_offers_of_not_matches a attributes hq
        by_cases hr : s.Matches d r
        · have hridx := (findIdx_offers_of_matches a attributes hr).2
          omega
        · have hridx := findIdx_offers_of_not_matches a attributes hr
          obtain ⟨hqplace, hqname⟩ := places_of_not_matches a attributes hq
          obtain ⟨hrplace, hrname⟩ := places_of_not_matches a attributes hr
          have hrest : s.Precedes attributes q r := precedes_of_findIdx_offers_lt (by omega)
          rw [Precedes] at hrest
          omega

end ObjectSchema

/-! ### Projections -/

namespace Projection

/-- The key of a wanted name is its folded form. -/
def Keyed (p : Projection) : Prop :=
  ∀ w ∈ p.wanted.toList, w.1 = fold w.2

/-- A name is missing when it is wanted and has not been found. -/
lemma Keyed.find?_missing {p : Projection} (h : p.Keyed) (k : String) :
    p.missing.find? (fun r => fold r == k)
      = if k ∈ p.found then none else p.wanted.get? k := by
  rw [missing, List.find?_map, List.find?_filter, OrderedMap.get?]
  by_cases hk : k ∈ p.found
  · rw [if_pos hk, Option.map_eq_none_iff, List.find?_eq_none]
    intro w hw hfound
    rw [decide_eq_true_eq, decide_eq_true_eq, Function.comp_apply, beq_iff_eq, ← h w hw] at hfound
    exact hfound.1 (hfound.2 ▸ hk)
  · rw [if_neg hk]
    congr 1
    refine List.find?_congr fun w hw => ?_
    rw [Function.comp_apply, ← h w hw, Bool.eq_iff_iff, decide_eq_true_eq, decide_eq_true_eq,
      beq_iff_eq]
    exact ⟨fun hfound => hfound.2, fun heq => ⟨heq ▸ hk, heq⟩⟩

/-- A claim goes to the missing name that folds alike. -/
lemma Keyed.claim_fst {p : Projection} (h : p.Keyed) (n : String) :
    (p.claim n).1 = p.missing.find? fun r => fold r == fold n := by
  rw [h.find?_missing, claim]
  cases p.wanted.get? (fold n) with
  | none => exact (ite_self none).symm
  | some r =>
      dsimp only
      split <;> rfl

/-- What is wanted stays when a name is claimed. -/
@[simp] lemma wanted_claim (p : Projection) (n : String) : (p.claim n).2.wanted = p.wanted := by
  rw [claim]
  cases p.wanted.get? (fold n) with
  | none => rfl
  | some r =>
      dsimp only
      split <;> rfl

/-- A projection stays keyed when a name is claimed. -/
lemma Keyed.claim {p : Projection} (h : p.Keyed) (n : String) : (p.claim n).2.Keyed := by
  simpa [Keyed] using h

/-- A name that is claimed is missing no more. -/
lemma Keyed.missing_claim {p : Projection} (h : p.Keyed) (n : String) :
    (p.claim n).2.missing = remaining p.missing [n] := by
  have hfind := h.find?_missing (fold n)
  rw [Projection.claim]
  cases hget : p.wanted.get? (fold n) with
  | none =>
      rw [hget, ite_self] at hfind
      exact (remaining_eq_self hfind).symm
  | some r =>
      dsimp only
      by_cases hk : fold n ∈ p.found
      · rw [if_pos hk] at hfind ⊢
        exact (remaining_eq_self hfind).symm
      · rw [if_neg hk, missing, missing, remaining, List.filter_map, List.filter_filter]
        congr 1
        refine List.filter_congr fun w hw => ?_
        simp [h w hw]

/-- **Claims are assignments** to the names still missing. -/
theorem Keyed.claimAll (a : α) : ∀ (names : List String) {p : Projection}, p.Keyed →
    ((p.claimAll names).1.map fun r => (r, a))
        = assigned p.missing (names.map fun n => (n, a))
      ∧ (p.claimAll names).2.Keyed
      ∧ (p.claimAll names).2.missing = remaining p.missing names
  | [], p, h => ⟨rfl, h, by simp [Projection.claimAll, remaining]⟩
  | n :: names, p, h => by
      obtain ⟨hnames, hkeyed, hmissing⟩ := Keyed.claimAll a names (h.claim n)
      refine ⟨?_, hkeyed, ?_⟩
      · rw [List.map_cons, assigned, ← h.claim_fst n, Projection.claimAll, List.map_append,
          hnames, h.missing_claim]
        cases hclaim : (p.claim n).1 with
        | none =>
            rw [h.claim_fst] at hclaim
            rw [remaining_eq_self hclaim]
            rfl
        | some r => rfl
      · rw [Projection.claimAll, hmissing, h.missing_claim, remaining_remaining]
        rfl

/-- The names wanted by a selection: those already wanted, and then the others, each once. -/
lemma toList_foldl_wanted : ∀ (names : List String) (m : OrderedMap String),
    (names.foldl (fun m name =>
      if m.contains (fold name) then m else m.insert (fold name) name) m).toList
      = m.toList ++ ((distinctNames names).filter fun r => fold r ∉ m.keys).map
          fun r => (fold r, r)
  | [], m => by simp [distinctNames]
  | n :: names, m => by
      rw [List.foldl_cons, toList_foldl_wanted names, distinctNames, List.filter_cons,
        List.filter_filter]
      by_cases hn : fold n ∈ m.keys
      · rw [if_pos (OrderedMap.contains_iff.mpr hn), if_neg (by simpa using hn)]
        congr 2
        refine List.filter_congr fun r _ => ?_
        by_cases hr : fold r = fold n
        · simp [hr, hn]
        · simp [hr]
      · rw [if_neg fun h => hn (OrderedMap.contains_iff.mp h), if_pos (by simpa using hn),
          OrderedMap.toList_insert hn, OrderedMap.keys_insert hn, List.map_cons,
          List.append_assoc, List.singleton_append]
        congr 3
        refine List.filter_congr fun r _ => ?_
        simp [not_or]

/-- The projection of a selection is keyed. -/
lemma keyed_ofSelection (names : List String) : (ofSelection names).Keyed := by
  intro w hw
  rw [ofSelection, toList_foldl_wanted] at hw
  obtain ⟨r, -, rfl⟩ := List.mem_map.mp hw
  rfl

/-- The distinct names of a selection are missing at first. -/
@[simp] lemma missing_ofSelection (names : List String) :
    (ofSelection names).missing = distinctNames names := by
  rw [missing, ofSelection, toList_foldl_wanted, List.filter_eq_self.mpr (by simp),
    List.filter_eq_self.mpr (by simp [OrderedMap.empty, OrderedMap.keys]), OrderedMap.empty,
    List.nil_append, List.map_map]
  exact List.map_id _

end Projection

end DirectoryLens
