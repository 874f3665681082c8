/-
Traversals of lists by computations that may fail.

* `exists_mem_of_forall₂`, `exists_of_forall₂`: the partners of a member of related lists;
* `forall₂_trans`: lists that are related one after another;
* `forall₂_filter`, `rel_find?`, `any_eq_of_forall₂`: what is kept of related lists, their first
  hits, and whether there are any;
* `ExceptRel`: results that succeed with related values, or fail with related errors;
* `ExceptRel.map`, `ExceptRel.mapM`: what is made of such results, and traversals whose steps are
  related;
* `bind_eq_ok`, `bind_eq_error`: two steps succeed when each does, and fail at the first that does;
* `map_eq_ok`, `map_eq_error`: a function leaves success and failure;
* `mapM_eq_ok`, `mapM_eq_some_iff`: a traversal succeeds with what each of its steps does;
* `exists_of_mapM_eq_error`: it fails at the first step that does;
* `exists_perm_of_mapM_eq_ok`: it may go another way round when it succeeds.
-/
import Mathlib.Tactic

namespace DirectoryLens

variable {α β γ ε : Type}

/-- What stands on the right of related lists has a partner on the left. -/
lemma exists_mem_of_forall₂ {R : α → β → Prop} {as : List α} {bs : List β}
    (h : List.Forall₂ R as bs) {b : β} (hb : b ∈ bs) : ∃ a ∈ as, R a b := by
  induction h with
  | nil => simp at hb
  | @cons a c as bs hac _ ih =>
      rcases List.mem_cons.mp hb with rfl | hb
      · exact ⟨a, by simp, hac⟩
      · obtain ⟨a', ha', hR⟩ := ih hb
        exact ⟨a', List.mem_cons_of_mem a ha', hR⟩

/-- Of three lists that are related pairwise, each member of the first has its partners. -/
lemma exists_of_forall₂ {R : α → β → Prop} {S : β → γ → Prop} {T : α → γ → Prop}
    {as : List α} {bs : List β} {cs : List γ} (hR : List.Forall₂ R as bs)
    (hS : List.Forall₂ S bs cs) (hT : List.Forall₂ T as cs) :
    ∀ a ∈ as, ∃ b c, R a b ∧ S b c ∧ T a c := by
  induction hR generalizing cs with
  | nil => simp
  | cons hab _ ih =>
      cases hS with
      | cons hbc hS =>
          cases hT with
          | cons hac hT => exact List.forall_mem_cons.mpr ⟨⟨_, _, hab, hbc, hac⟩, ih hS hT⟩

/-- Lists that are related one after another are related as their members are. -/
lemma forall₂_trans {R : α → β → Prop} {S : β → γ → Prop} {T : α → γ → Prop} {as : List α}
    {bs : List β} {cs : List γ} (hR : List.Forall₂ R as bs) (hS : List.Forall₂ S bs cs)
    (hT : ∀ a b c, R a b → S b c → T a c) : List.Forall₂ T as cs := by
  induction hR generalizing cs with
  | nil =>
      cases hS
      exact .nil
  | cons hab _ ih =>
      cases hS with
      | cons hbc hS => exact .cons (hT _ _ _ hab hbc) (ih hS)

/-- Related lists stay so when related members are kept alike. -/
lemma forall₂_filter {R : α → β → Prop} {p : α → Bool} {q : β → Bool} {as : List α} {bs : List β}
    (h : List.Forall₂ R as bs) (hpq : ∀ a b, R a b → p a = q b) :
    List.Forall₂ R (as.filter p) (bs.filter q) :=
  List.rel_filter (fun {_ _} hab => Bool.eq_iff_iff.mp (hpq _ _ hab)) h

/-- The first hits in related lists are related when related members are hit alike. -/
lemma rel_find? {R : α → β → Prop} {p : α → Bool} {q : β → Bool} {as : List α} {bs : List β}
    (h : List.Forall₂ R as bs) (hpq : ∀ a b, R a b → p a = q b) :
    Option.Rel R (as.find? p) (bs.find? q) := by
  induction h with
  | nil => exact .none
  | @cons a b as bs hab _ ih =>
      rw [List.find?_cons, List.find?_cons, ← hpq a b hab]
      cases p a with
      | true => exact .some hab
      | false => exact ih

/-- Some member of related lists is hit in both or in none when related members are hit alike. -/
lemma any_eq_of_forall₂ {R : α → β → Prop} {p : α → Bool} {q : β → Bool} {as : List α}
    {bs : List β} (h : List.Forall₂ R as bs) (hpq : ∀ a b, R a b → p a = q b) :
    as.any p = bs.any q := by
  induction h with
  | nil => rfl
  | cons hab _ ih => rw [List.any_cons, List.any_cons, hpq _ _ hab, ih]

/-- Two results that succeed with related values, or fail with related errors. -/
inductive ExceptRel (R : α → β → Prop) (E : ε → ε → Prop) : Except ε α → Except ε β → Prop
  | ok {a : α} {b : β} : R a b → ExceptRel R E (.ok a) (.ok b)
  | error {fault fault' : ε} : E fault fault' → ExceptRel R E (.error fault) (.error fault')

/-- A result is related to itself when values and errors are. -/
lemma ExceptRel.refl {R : α → α → Prop} {E : ε → ε → Prop} (hR : ∀ a, R a a)
    (hE : ∀ fault, E fault fault) (x : Except ε α) : ExceptRel R E x x := by
  cases x with
  | error fault => exact .error (hE fault)
  | ok a => exact .ok (hR a)

/-- Two steps succeed when each of them does. -/
lemma bind_eq_ok {x : Except ε α} {f : α → Except ε β} {b : β} :
    x >>= f = .ok b ↔ ∃ a, x = .ok a ∧ f a = .ok b := by
  cases x with
  | error e => exact ⟨fun h => (by cases h), fun ⟨_, h, _⟩ => (by cases h)⟩
  | ok a =>
      constructor
      · exact fun h => ⟨a, rfl, h⟩
      · rintro ⟨_, ha, h⟩
        cases ha
        exact h

/-- Two steps fail when the first one does, or the second after it. -/
lemma bind_eq_error {x : Except ε α} {f : α → Except ε β} {fault : ε} :
    x >>= f = .error fault ↔ x = .error fault ∨ ∃ a, x = .ok a ∧ f a = .error fault := by
  cases x with
  | error e =>
      constructor
      · intro h
        cases h
        exact .inl rfl
      · rintro (h | ⟨_, h, _⟩)
        · cases h
          rfl
        · cases h
  | ok a =>
      constructor
      · exact fun h => .inr ⟨a, rfl, h⟩
      · rintro (h | ⟨_, ha, h⟩)
        · cases h
        · cases ha
          exact h

/-- What succeeds under a function succeeds without it. -/
@[simp] lemma map_eq_ok {x : Except ε α} {f : α → β} {b : β} :
    f <$> x = .ok b ↔ ∃ a, x = .ok a ∧ f a = b := by
  cases x with
  | error e => exact ⟨fun h => (by cases h), fun ⟨_, h, _⟩ => (by cases h)⟩
  | ok a =>
      constructor
      · intro h
        cases h
        exact ⟨a, rfl, rfl⟩
      · rintro ⟨_, ha, rfl⟩
        cases ha
        rfl

/-- What fails under a function fails without it. -/
@[simp] lemma map_eq_error {x : Except ε α} {f : α → β} {fault : ε} :
    f <$> x = .error fault ↔ x = .error fault := by
  cases x with
  | error e =>
      constructor
      · intro h
        cases h
        rfl
      · intro h
        cases h
        rfl
  | ok a => exact ⟨fun h => (by cases h), fun h => (by cases h)⟩

/-- A traversal succeeds with what each of its steps does. -/
lemma mapM_eq_ok {f : α → Except ε β} : ∀ {as : List α} {bs : List β},
    as.mapM f = .ok bs ↔ List.Forall₂ (fun a b => f a = .ok b) as bs
  | [], bs => by
      rw [List.mapM_nil, List.forall₂_nil_left_iff]
      exact ⟨fun h => (Except.ok.inj h).symm, fun h => h ▸ rfl⟩
  | a :: as, bs => by
      rw [List.mapM_cons, List.forall₂_cons_left_iff]
      constructor
      · intro h
        obtain ⟨b, hb, h⟩ := bind_eq_ok.mp h
        obtain ⟨cs, hcs, h⟩ := bind_eq_ok.mp h
        cases h
        exact ⟨b, cs, hb, mapM_eq_ok.mp hcs, rfl⟩
      · rintro ⟨b, cs, hb, hcs, rfl⟩
        exact bind_eq_ok.mpr ⟨b, hb, bind_eq_ok.mpr ⟨cs, mapM_eq_ok.mpr hcs, rfl⟩⟩

/-- A traversal whose steps may lack a value has the values that they have. -/
lemma mapM_eq_some_iff {f : α → Option β} {as : List α} {bs : List β} :
    as.mapM f = some bs ↔ List.Forall₂ (fun a b => f a = some b) as bs := by
  induction as generalizing bs with
  | nil =>
      rw [List.mapM_nil, List.forall₂_nil_left_iff]
      exact ⟨fun h => (Option.some_inj.mp h).symm, fun h => h ▸ rfl⟩
  | cons a as ih =>
      rw [List.mapM_cons, List.forall₂_cons_left_iff]
      simp only [Option.bind_eq_bind, Option.bind_eq_some_iff, Option.pure_def, Option.some_inj,
        ih]
      constructor
      · rintro ⟨b, hb, cs, hcs, rfl⟩
        exact ⟨b, cs, hb, hcs, rfl⟩
      · rintro ⟨b, cs, hb, hcs, rfl⟩
        exact ⟨b, hb, cs, hcs, rfl⟩

/-- A traversal fails at the first step that does. -/
lemma exists_of_mapM_eq_error {f : α → Except ε β} {fault : ε} : ∀ {as : List α},
    as.mapM f = .error fault →
      ∃ before a after, as = before ++ a :: after ∧ (∀ b ∈ before, ∃ c, f b = .ok c)
        ∧ f a = .error fault
  | [], h => by cases h
  | a :: as, h => by
      rw [List.mapM_cons] at h
      rcases bind_eq_error.mp h with ha | ⟨b, hb, h⟩
      · exact ⟨[], a, as, rfl, by simp, ha⟩
      · rcases bind_eq_error.mp h with has | ⟨cs, -, h⟩
        · obtain ⟨before, x, after, rfl, hbefore, hx⟩ := exists_of_mapM_eq_error has
          refine ⟨a :: before, x, after, rfl, fun y hy => ?_, hx⟩
          rcases List.mem_cons.mp hy with rfl | hy
          · exact ⟨b, hb⟩
          · exact hbefore y hy
        · cases h

/-- What is made of related results is related. -/
lemma ExceptRel.map {α' β' : Type} {R : α → β → Prop} {S : α' → β' → Prop} {E : ε → ε → Prop}
    {x : Except ε α} {y : Except ε β} {f : α → α'} {g : β → β'} (h : ExceptRel R E x y)
    (hfg : ∀ a b, R a b → S (f a) (g b)) : ExceptRel S E (f <$> x) (g <$> y) := by
  cases h with
  | ok hab => exact .ok (hfg _ _ hab)
  | error hfault => exact .error hfault

/-- Traversals of related lists are related when their steps are. -/
lemma ExceptRel.mapM {α' β' : Type} {R : α → β → Prop} {S : α' → β' → Prop} {E : ε → ε → Prop}
    {as : List α} {bs : List β} {f : α → Except ε α'} {g : β → Except ε β'}
    (h : List.Forall₂ R as bs) (hfg : ∀ a b, R a b → ExceptRel S E (f a) (g b)) :
    ExceptRel (List.Forall₂ S) E (as.mapM f) (bs.mapM g) := by
  induction h with
  | nil => exact .ok .nil
  | @cons a b as bs hab _ ih =>
      have hstep := hfg a b hab
      rw [List.mapM_cons, List.mapM_cons]
      revert hstep ih
      generalize f a = x, g b = y, as.mapM f = xs, bs.mapM g = ys
      rintro hrest (hstep | hfault)
      · cases hrest with
        | error hfault => exact .error hfault
        | ok hrest => exact .ok (.cons hstep hrest)
      · exact .error hfault

/-- A traversal that succeeds does so the other way round, with what it gives put alike. -/
lemma exists_perm_of_mapM_eq_ok {f : α → Except ε β} {as as' : List α} {bs : List β}
    (hperm : as'.Perm as) (h : as.mapM f = .ok bs) :
    ∃ bs' : List β, as'.mapM f = .ok bs' ∧ bs'.Perm bs := by
  obtain ⟨bs', hbs', hperm'⟩ := List.perm_comp_forall₂ hperm (mapM_eq_ok.mp h)
  exact ⟨bs', mapM_eq_ok.mpr hbs', hperm'⟩

end DirectoryLens
