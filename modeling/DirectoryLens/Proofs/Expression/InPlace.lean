/-
Composites that are changed in place, call by call.

* `Composite.Acting`: computations on a composite, what was changed being kept when they fail;
* `Composite.Call`: one more child, another mark, or resolution;
* `Call.act`: what a call does, step by step;
* `run_perform_add`, `run_perform_setSymbol`, `run_perform_resolve`: each call is the function of
  that name, and one that is refused leaves the composite;
* `Composite.Outcome`: what a call can come to;
* `Composite.Run`: calls one after another, whatever comes of each;
* `Run.forall₂_later`: the children stay in the order in which they were added.
-/
import DirectoryLens.Proofs.Expression.Asking

namespace DirectoryLens

namespace Expression

/-- An expression as it is after any number of resolutions, whatever came of each. -/
def Later : Expression → Expression → Prop :=
  Relation.ReflTransGen fun e e' => ∃ ctx log, e' = ((e.resolve ctx).run log).1.1

/-- What is not resolved is as it was. -/
lemma forall₂_later_refl (es : List Expression) : List.Forall₂ Later es es :=
  List.forall₂_same.mpr fun _ _ => .refl

/-- What is resolved after some resolutions is as it is after all of them. -/
lemma forall₂_later_trans {es es₁ es₂ : List Expression} (h : List.Forall₂ Later es es₁)
    (h' : List.Forall₂ Later es₁ es₂) : List.Forall₂ Later es es₂ :=
  forall₂_trans h h' fun _ _ _ => Relation.ReflTransGen.trans

/-- Of several expressions that are resolved each is as it is after some resolutions. -/
lemma forall₂_later_resolveAll (ctx : Context) (es : List Expression) (log : CallLog) :
    List.Forall₂ Later es ((resolveAll ctx es).run log).1.1 := by
  refine (forall₂_resolveAll ctx es log).imp fun e e' he => ?_
  rcases he with rfl | ⟨log', rfl⟩
  · exact .refl
  · exact .single ⟨ctx, log', rfl⟩

end Expression

namespace Composite

/-- A computation on a composite. What it has changed stays changed when it fails. -/
abbrev Acting := ExceptT QueryError (StateT Composite Calling)

/-- A call on a composite: for one more child, for another mark, or for resolution. -/
inductive Call
  | add (child : Expression)
  | setSymbol (text : String)
  | resolve (ctx : Context)

/-- The composite under the mark that is forced on several classes. -/
def settle (c : Composite) : Composite :=
  { c with symbol := settledSymbol c.kind c.symbol c.children.length }

namespace Call

/-- The child that a call is to add. -/
def child? : Call → Option Expression
  | .add child => some child
  | .setSymbol _ | .resolve _ => none

/-- What a call does. -/
def act : Call → Acting Unit
  | .add child => do
    let c ← get
    if c.kind = .not then
      if !c.children.isEmpty then throw (.querySyntax .secondNegand)
      if child.isComposite then throw (.querySyntax (.compositeNegand (← child.display)))
    modify fun c => { c with children := c.children ++ [child] }
    modify settle
  | .setSymbol text => do
    let c ← get
    match c.kind.allowedSymbol? text with
    | some s => modify fun c => { c with symbol := s }
    | none => throw (.querySyntax (.symbolNotAllowed text c.kind))
  | .resolve ctx => do
    let c ← get
    let (es, result) ← Expression.resolveAll ctx c.children
    modify fun c => { c with children := es }
    match result with
    | .ok () => modify settle
    | .error fault => throw fault

end Call

/-- A call on a composite, with the composite that it leaves. -/
def perform (call : Call) (c : Composite) : Calling (Except QueryError Unit × Composite) :=
  call.act.run.run c

/-! ### Calls one by one -/

variable {c c' : Composite} {call : Call} {ctx : Context} {log : CallLog}
  {result : Except QueryError Unit}

/-- A child is added in place as it is to a copy. One that is refused leaves the composite. -/
lemma run_perform_add (c : Composite) (child : Expression) (log : CallLog) :
    (perform (.add child) c).run log =
      match (c.add child).run.run log with
      | (.ok c', mid) => ((.ok (), c'), mid)
      | (.error fault, mid) => ((.error fault, c), mid) := by
  obtain ⟨kind, symbol, es⟩ := c
  cases kind with
  | and | or | classes => rfl
  | not => cases es <;> cases child <;> rfl

/-- A mark is set in place as it is on a copy. One that is refused leaves the composite. -/
lemma run_perform_setSymbol (c : Composite) (text : String) (log : CallLog) :
    (perform (.setSymbol text) c).run log =
      match c.setSymbol text with
      | .ok c' => ((.ok (), c'), log)
      | .error fault => ((.error fault, c), log) := by
  have hact : (perform (.setSymbol text) c).run log =
      ((match c.kind.allowedSymbol? text with
        | some s => modify fun c => { c with symbol := s }
        | none => throw (.querySyntax (.symbolNotAllowed text c.kind)) : Acting Unit).run.run c).run
          log := rfl
  rw [hact, setSymbol]
  cases c.kind.allowedSymbol? text <;> rfl

/-- A composite is resolved in place as it is as an expression, with success or failure. -/
lemma run_perform_resolve (c : Composite) (ctx : Context) (log : CallLog) :
    ∃ c', (perform (.resolve ctx) c).run log
        = ((((c.toExpression.resolve ctx).run log).1.2, c'),
          ((c.toExpression.resolve ctx).run log).2)
      ∧ ((c.toExpression.resolve ctx).run log).1.1 = c'.toExpression := by
  have hact : (perform (.resolve ctx) c).run log =
      (fun p : (List Expression × Except QueryError Unit) × CallLog =>
        ((match p.1.2 with
          | .ok () => modify settle
          | .error fault => throw fault : Acting Unit).run.run
            { c with children := p.1.1 }).run p.2)
        ((Expression.resolveAll ctx c.children).run log) := rfl
  rw [hact, toExpression, Expression.resolve_composite]
  cases (Expression.resolveAll ctx c.children).run log with
  | mk p mid =>
      obtain ⟨es, result⟩ := p
      cases result with
      | error fault => exact ⟨_, rfl, rfl⟩
      | ok => exact ⟨_, rfl, rfl⟩

/-- **A child is refused by a negation that has one, and if it is a composite by every negation.**
Any other child is put behind the others; a composite that refuses one is left as it was. -/
theorem perform_add (c : Composite) (child : Expression) (log : CallLog) :
    ((∃ fault, ((perform (.add child) c).run log).1.1 = .error fault) ↔
        c.kind = .not ∧ (c.children ≠ [] ∨ child.isComposite))
      ∧ (((perform (.add child) c).run log).1
          = (.ok (), settle ⟨c.kind, c.symbol, c.children ++ [child]⟩)
        ∨ ∃ fault, ((perform (.add child) c).run log).1 = (.error fault, c)) := by
  rw [run_perform_add, Expression.run_add]
  by_cases hsecond : c.kind = .not ∧ c.children ≠ []
  · rw [if_pos hsecond]
    exact ⟨⟨fun _ => ⟨hsecond.1, .inl hsecond.2⟩, fun _ => ⟨_, rfl⟩⟩, .inr ⟨_, rfl⟩⟩
  · rw [if_neg hsecond]
    by_cases hcomposite : c.kind = .not ∧ child.isComposite
    · rw [if_pos hcomposite]
      exact ⟨⟨fun _ => ⟨hcomposite.1, .inr hcomposite.2⟩, fun _ => ⟨_, rfl⟩⟩, .inr ⟨_, rfl⟩⟩
    · rw [if_neg hcomposite]
      refine ⟨⟨?_, ?_⟩, .inl rfl⟩
      · rintro ⟨_, h⟩
        cases h
      · rintro ⟨hnot, hne | hchild⟩
        · exact absurd ⟨hnot, hne⟩ hsecond
        · exact absurd ⟨hnot, hchild⟩ hcomposite

/-- **A mark is refused that the connective does not allow**, and another one is set; a composite
that refuses one is left as it was. -/
theorem perform_setSymbol (c : Composite) (text : String) (log : CallLog) :
    ((∃ fault, ((perform (.setSymbol text) c).run log).1.1 = .error fault) ↔
        text ∉ c.kind.allowed.map Symbol.text)
      ∧ ((∃ s ∈ c.kind.allowed, s.text = text
          ∧ ((perform (.setSymbol text) c).run log).1 = (.ok (), { c with symbol := s }))
        ∨ ∃ fault, ((perform (.setSymbol text) c).run log).1 = (.error fault, c)) := by
  rw [run_perform_setSymbol, setSymbol]
  cases hs : c.kind.allowedSymbol? text with
  | none =>
      have hnot : text ∉ c.kind.allowed.map Symbol.text := by
        simpa [Connective.allowedSymbol?] using hs
      exact ⟨⟨fun _ => hnot, fun _ => ⟨_, rfl⟩⟩, .inr ⟨_, rfl⟩⟩
  | some s =>
      have hmem : s ∈ c.kind.allowed := List.mem_of_find?_eq_some hs
      have htext : s.text = text := by simpa using List.find?_some hs
      refine ⟨⟨?_, fun hnot => ?_⟩, .inl ⟨s, hmem, htext, rfl⟩⟩
      · rintro ⟨_, h⟩
        cases h
      · exact absurd (List.mem_map.mpr ⟨s, hmem, htext⟩) hnot

/-- Resolution keeps the connective of a composite. It settles the mark when it succeeds, and leaves
it when it fails; each of the children is resolved or left. -/
lemma perform_resolve (h : ((perform (.resolve ctx) c).run log).1 = (result, c')) :
    c'.kind = c.kind
      ∧ c'.symbol = Expression.symbolAfter result c.kind c.symbol c'.children.length
      ∧ List.Forall₂ Expression.Later c.children c'.children := by
  obtain ⟨c'', hrun, hresolve⟩ := run_perform_resolve c ctx log
  have hall := Expression.forall₂_later_resolveAll ctx c.children log
  rw [hrun] at h
  rw [toExpression, Expression.resolve_composite] at hresolve h
  cases h
  injection hresolve with hkind hsymbol hchildren
  rw [hchildren] at hall
  exact ⟨hkind.symm, hchildren ▸ hsymbol.symm, hall⟩

/-- What a call on a composite can come to. What is refused, and is no resolution, leaves the
composite. -/
inductive Outcome (c : Composite) : Call → Except QueryError Unit → Composite → Prop
  | added (child : Expression) :
      Outcome c (.add child) (.ok ()) (settle ⟨c.kind, c.symbol, c.children ++ [child]⟩)
  | notAdded (child : Expression) (fault : QueryError) : Outcome c (.add child) (.error fault) c
  | marked {s : Symbol} : s ∈ c.kind.allowed →
      Outcome c (.setSymbol s.text) (.ok ()) { c with symbol := s }
  | notMarked (text : String) (fault : QueryError) : Outcome c (.setSymbol text) (.error fault) c
  | resolved {ctx : Context} {result : Except QueryError Unit} {c' : Composite} :
      c'.kind = c.kind →
      c'.symbol = Expression.symbolAfter result c.kind c.symbol c'.children.length →
      List.Forall₂ Expression.Later c.children c'.children → Outcome c (.resolve ctx) result c'

/-- A call comes to one of its outcomes. -/
theorem outcome_of_perform (h : ((perform call c).run log).1 = (result, c')) :
    Outcome c call result c' := by
  cases call with
  | add child =>
      rcases (perform_add c child log).2 with hok | ⟨fault, herror⟩
      · cases h.symm.trans hok
        exact .added child
      · cases h.symm.trans herror
        exact .notAdded child fault
  | setSymbol text =>
      rcases (perform_setSymbol c text log).2 with ⟨s, hs, rfl, hok⟩ | ⟨fault, herror⟩
      · cases h.symm.trans hok
        exact .marked hs
      · cases h.symm.trans herror
        exact .notMarked text fault
  | resolve ctx =>
      obtain ⟨hkind, hsymbol, hchildren⟩ := perform_resolve h
      exact .resolved hkind hsymbol hchildren

/-! ### Calls one after another -/

/-- Calls on a composite, one after another, whatever comes of each: those that succeed in order,
and the composite that is left in the end. -/
inductive Run (start : Composite) : List Call → Composite → Prop
  | start : Run start [] start
  | succeed {done : List Call} {c c' : Composite} (call : Call) (log : CallLog) :
      Run start done c → ((perform call c).run log).1 = (.ok (), c') →
      Run start (done ++ [call]) c'
  | fail {done : List Call} {c c' : Composite} {fault : QueryError} (call : Call)
      (log : CallLog) :
      Run start done c → ((perform call c).run log).1 = (.error fault, c') → Run start done c'

/-- The children that a call with some result adds. -/
def Call.added (call : Call) : Except QueryError Unit → List Expression
  | .ok () => call.child?.toList
  | .error _ => []

/-- The children of a composite after a call: those that it had, resolved or left, and what the call
adds. -/
lemma forall₂_later_perform (h : ((perform call c).run log).1 = (result, c')) :
    c'.kind = c.kind
      ∧ List.Forall₂ Expression.Later (c.children ++ call.added result) c'.children := by
  cases outcome_of_perform h with
  | added child => exact ⟨rfl, Expression.forall₂_later_refl _⟩
  | notAdded | marked | notMarked =>
      show c.kind = c.kind ∧ List.Forall₂ Expression.Later (c.children ++ []) c.children
      rw [List.append_nil]
      exact ⟨rfl, Expression.forall₂_later_refl _⟩
  | @resolved ctx _ _ hkind _ hchildren =>
      have hadded : Call.added (.resolve ctx) result = [] := by
        cases result <;> rfl
      rw [hadded, List.append_nil]
      exact ⟨hkind, hchildren⟩

/-- **The children of a composite stay in the order in which they were added.** After any calls it
has the children that it had at first and then those that were added with success, each of them as
it is after some resolutions; its connective does not change. -/
theorem Run.forall₂_later {start : Composite} {done : List Call} (h : Run start done c) :
    c.kind = start.kind ∧ List.Forall₂ Expression.Later
      (start.children ++ done.filterMap Call.child?) c.children := by
  induction h with
  | start =>
      rw [List.filterMap_nil, List.append_nil]
      exact ⟨rfl, Expression.forall₂_later_refl _⟩
  | succeed call log _ hcall ih =>
      obtain ⟨hkind, hchildren⟩ := ih
      obtain ⟨hkind', hchildren'⟩ := forall₂_later_perform hcall
      have hadded : [call].filterMap Call.child? = call.added (.ok ()) := by
        cases call <;> rfl
      rw [List.filterMap_append, ← List.append_assoc, hadded]
      exact ⟨hkind'.trans hkind, Expression.forall₂_later_trans
        (List.rel_append hchildren (Expression.forall₂_later_refl _)) hchildren'⟩
  | fail call log _ hcall ih =>
      obtain ⟨hkind, hchildren⟩ := ih
      obtain ⟨hkind', hchildren'⟩ := forall₂_later_perform hcall
      rw [Call.added, List.append_nil] at hchildren'
      exact ⟨hkind'.trans hkind, Expression.forall₂_later_trans hchildren hchildren'⟩

end Composite

end DirectoryLens
