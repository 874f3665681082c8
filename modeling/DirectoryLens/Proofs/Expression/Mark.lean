/-
The mark that a composite says it has, and the mark that it is written with.

* `Composite.Constructed`: what the constructors of composites make;
* `Run.symbol_eq_any_iff`: several classes have the mark that is forced on them, unless the last
  call that succeeded has set the other one;
* `Composite.filter_mark`: a composite is written with its mark, but for such classes.
-/
import DirectoryLens.Proofs.Expression.InPlace
import DirectoryLens.Proofs.Expression.Meaning

namespace DirectoryLens.Composite

/-- A composite that a constructor makes. -/
inductive Constructed : Composite → Prop
  | ofKind (kind : Connective) : Constructed (ofKind kind)
  | all {c : Composite} (es : List Expression) : c.toExpression = .all es → Constructed c
  | any {c : Composite} (es : List Expression) : c.toExpression = .any es → Constructed c
  | ofClasses {c : Composite} (es : List Expression) :
      c.toExpression = .ofClasses es → Constructed c
  | negation {c : Composite} {e : Expression} {log : CallLog} :
      ((Expression.negation e).run.run log).1 = .ok c.toExpression → Constructed c

variable {start c : Composite} {done : List Call}

/-- A composite that takes one more child keeps its connective. -/
lemma kind_of_add {child : Expression} {c' : Composite} {log : CallLog}
    (h : ((c.add child).run.run log).1 = .ok c') : c'.kind = c.kind := by
  rw [Expression.run_add] at h
  split at h
  · cases h
  · split at h
    · cases h
    · cases h
      rfl

/-- Several classes have the mark that is forced on them when they are constructed. -/
lemma Constructed.symbol_eq_any (h : Constructed c) (hkind : c.kind = .classes)
    (hsize : 1 < c.children.length) : c.symbol = .any := by
  obtain ⟨kind, symbol, es⟩ := c
  obtain rfl : kind = .classes := hkind
  cases h with
  | ofKind => rfl
  | all es h => cases h
  | any es h => cases h
  | ofClasses es' h =>
      obtain ⟨-, hsymbol, rfl⟩ := Expression.composite.inj h
      rw [hsymbol]
      exact if_pos ⟨rfl, hsize⟩
  | @negation _ e log h =>
      obtain ⟨c, hadd, hc⟩ := Writing.map_eq_ok
        (show (Expression.negation e).run.run log = (.ok _, _) from Prod.ext h rfl)
      have hnot : c.kind = .not := kind_of_add (congrArg Prod.fst hadd)
      have hclasses : c.kind = .classes := (Expression.composite.inj hc).1
      cases hnot.symm.trans hclasses

/-- Several classes have the mark that is forced on them after a call, or keep the mark that they
had, unless the call has set the other one. -/
lemma symbol_of_perform {call : Call} {log : CallLog} {c' : Composite}
    (h : ((perform call c).run log).1 = (.ok (), c')) (hkind : c'.kind = .classes)
    (hsize : 1 < c'.children.length) : c'.symbol = .any ↔ call ≠ .setSymbol "&" := by
  cases outcome_of_perform h with
  | added child => exact iff_of_true (if_pos ⟨hkind, hsize⟩) fun heq => by cases heq
  | @marked s hs =>
      have hsymbol : s = .all ∨ s = .any := by
        rw [show c.kind = .classes from hkind] at hs
        simpa [Connective.allowed] using hs
      rcases hsymbol with rfl | rfl
      · exact iff_of_false (fun heq => (by cases heq)) (not_not.mpr rfl)
      · refine iff_of_true rfl fun heq => ?_
        injection heq with htext
        exact absurd htext (by decide)
  | resolved hkind' hsymbol =>
      have hsettled : c'.symbol = settledSymbol c.kind c.symbol c'.children.length := hsymbol
      rw [hsettled]
      exact iff_of_true (if_pos ⟨hkind'.symm.trans hkind, hsize⟩) fun heq => by cases heq

/-- What fails leaves the connective, the mark and the number of the children. -/
lemma eq_of_perform_eq_error {call : Call} {log : CallLog} {fault : QueryError} {c' : Composite}
    (h : ((perform call c).run log).1 = (.error fault, c')) :
    c'.kind = c.kind ∧ c'.symbol = c.symbol ∧ c'.children.length = c.children.length := by
  cases outcome_of_perform h with
  | notAdded | notMarked => exact ⟨rfl, rfl, rfl⟩
  | resolved hkind hsymbol hchildren => exact ⟨hkind, hsymbol, hchildren.length_eq.symm⟩

/-- **Several classes have the mark that is forced on them**, unless the last call that succeeded
has set the other one. -/
theorem Run.symbol_eq_any_iff (hrun : Run start done c) (hstart : start.Constructed)
    (hkind : c.kind = .classes) (hsize : 1 < c.children.length) :
    c.symbol = .any ↔ done.getLast? ≠ some (.setSymbol "&") := by
  induction hrun with
  | start => exact iff_of_true (hstart.symbol_eq_any hkind hsize) nofun
  | succeed call log _ hcall _ =>
      rw [List.getLast?_append, List.getLast?_singleton, Option.some_or, Ne, Option.some_inj]
      exact symbol_of_perform hcall hkind hsize
  | fail call log _ hcall ih =>
      obtain ⟨hkind', hsymbol, hlength⟩ := eq_of_perform_eq_error hcall
      rw [hsymbol]
      exact ih (hkind'.symm.trans hkind) (hlength ▸ hsize)

/-- The text of a composite starts with its mark, and with no other one. -/
lemma exists_render_iff (mark symbol : Symbol) (fs : List Filter) :
    (∃ rest, (Filter.composite mark fs).render.toList = '(' :: symbol.text.toList ++ rest)
      ↔ mark = symbol := by
  rw [Filter.render, String.toList_ofList, Filter.chars]
  constructor
  · rintro ⟨rest, h⟩
    cases mark <;> cases symbol <;> first | rfl | cases h
  · rintro rfl
    exact ⟨Filter.charsAll fs ++ [')'], by simp⟩

/-- **A composite is written with its mark, but for several classes whose mark was set last.** After
constructors and calls in any order, whatever came of each, a composite that has a filter and is not
one class alone is written with the mark that it says it has, unless it holds classes and the last
call that succeeded has set the mark that is not forced on them; several classes have the forced
mark just when that was not so. -/
theorem filter_mark (hstart : start.Constructed) (hrun : Run start done c) :
    (c.kind = .classes → 1 < c.children.length →
        (c.symbol = .any ↔ done.getLast? ≠ some (.setSymbol "&")))
      ∧ ∀ f log log', c.toExpression.filter.run.run log = (.ok f, log') →
          ¬ (c.kind = .classes ∧ c.children.length = 1) →
          ((∃ rest, f.render.toList = '(' :: c.symbol.text.toList ++ rest)
            ↔ ¬ (c.kind = .classes ∧ done.getLast? = some (.setSymbol "&"))) := by
  refine ⟨hrun.symbol_eq_any_iff hstart, fun f log log' hf hone => ?_⟩
  rcases Expression.filter_composite_eq_ok hf with
    ⟨e, hkind, hes, -⟩ | ⟨-, hsize, fs, -, rfl⟩
  · exact absurd ⟨hkind, by rw [hes]; rfl⟩ hone
  · rw [exists_render_iff]
    by_cases hkind : c.kind = .classes
    · have hforced := hrun.symbol_eq_any_iff hstart hkind (hsize hkind)
      rw [if_pos hkind, eq_comm, hforced]
      simp [hkind]
    · simp [hkind]

/-- Two classes. -/
def twoClasses : Composite :=
  ⟨.classes, .any, [.eq "objectClass" (.string "user"), .eq "objectClass" (.string "group")]⟩

/-- Two classes are written with the mark that they have until another one is set. -/
theorem filter_mark_twoClasses :
    (∃ f, (twoClasses.toExpression.filter.run.run []).1 = .ok f
        ∧ ∃ rest, f.render.toList = '(' :: twoClasses.symbol.text.toList ++ rest)
      ∧ ({ twoClasses with symbol := .all } : Composite).symbol ≠ .any := by
  have hstart : twoClasses.Constructed := .ofClasses twoClasses.children rfl
  have hset : Run twoClasses [.setSymbol "&"] { twoClasses with symbol := .all } :=
    .succeed (.setSymbol "&") [] .start rfl
  obtain ⟨f, hf⟩ : ∃ f, twoClasses.toExpression.filter.run.run [] = (.ok f, []) := ⟨_, rfl⟩
  refine ⟨⟨f, congrArg Prod.fst hf, ?_⟩, ?_⟩
  · exact ((filter_mark hstart .start).2 f [] [] hf (by decide)).mpr nofun
  · exact fun hany => ((filter_mark hstart hset).1 rfl (by decide)).mp hany rfl

/-- Not every composite is written with the mark that it says it has: when the mark of two classes
is set to the other one, they keep it, and are written with the one that is forced on them. -/
theorem not_every_mark_is_written :
    ¬ ∀ start done c, start.Constructed → Run start done c →
      ∀ f log log', c.toExpression.filter.run.run log = (.ok f, log') →
        ¬ (c.kind = .classes ∧ c.children.length = 1) →
        ∃ rest, f.render.toList = '(' :: c.symbol.text.toList ++ rest := by
  intro h
  have hset : Run twoClasses [.setSymbol "&"] { twoClasses with symbol := .all } :=
    .succeed (.setSymbol "&") [] .start rfl
  obtain ⟨rest, hrest⟩ := h _ _ _ (.ofClasses twoClasses.children rfl) hset _ [] [] rfl (by decide)
  cases hrest

end DirectoryLens.Composite
