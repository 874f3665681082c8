/-
The expressions that constructors, builders, calls and resolution lead to.

* `Expression.ofNameAndValue`, `ofName`, `ofValue`, `ofNothing`: the builders, by what they ask for;
* `Expression.Makes`: what one step makes of expressions that were made before;
* `Expression.Reachable`: what any steps lead to;
* `Reachable.built`: whatever is reached is built;
* `Joins`, `Joins.exists_eq`: the children that composites are made of, and that they have these, in
  order;
* `Later.composite`: resolution leaves the children of a composite in place, at any depth;
* `composites_keep_shape`: composites keep their shape through all of this, and refuse just the
  calls that would break it.
-/
import DirectoryLens.ActiveDirectory.Predicates
import DirectoryLens.Proofs.Expression.InPlace
import DirectoryLens.Proofs.Search.Failure

namespace DirectoryLens.Expression

open Composite (Call perform Run)

/-! ### Steps -/

/-- What is asked of an attribute with a value. -/
def ofNameAndValue : List (String → Value → Expression) :=
  [eq, approx, atLeast, atMost, greater, less, startsWith, endsWith, contains, like, bitwiseAnd,
    notBitwiseAnd, bitwiseOr, inChain]

/-- What is asked of an attribute alone. -/
def ofName : List (String → Expression) :=
  [present, absent]

/-- What is asked of a name in a directory. -/
def ofValue : List (Value → Expression) :=
  [isMemberOf, hasMember]

/-- What is asked of accounts and groups. -/
def ofNothing : List Expression :=
  [accountIsDisabled, accountIsEnabled, accountIsLocked, passwordNeverExpires, passwordMustChange,
    mailEnabled, isSecurityGroup, isDistributionGroup, isGlobalGroup, isDomainLocalGroup,
    isUniversalGroup]

/-- What one step makes of expressions that were made before: a constructor, a builder, a call on a
composite, or resolution, whatever comes of them. -/
inductive Makes : List Expression → Expression → Prop
  | compare (name : String) (comparator : Comparator) (source : Source) :
      Makes [] (.leaf (.compare name comparator source))
  | wildcard (name : String) (placement : Placement) (source : Source) :
      Makes [] (.leaf (.wildcard name placement source))
  | matching {name id : String} {source : Source} {e : Expression} :
      matching name id source = .ok e → Makes [] e
  | eqDeferred (name : String) (d : Deferred) : Makes [] (eqDeferred name d)
  | ofNameAndValue {build : String → Value → Expression} (name : String) (v : Value) :
      build ∈ ofNameAndValue → Makes [] (build name v)
  | ofName {build : String → Expression} (name : String) :
      build ∈ ofName → Makes [] (build name)
  | ofValue {build : Value → Expression} (v : Value) : build ∈ ofValue → Makes [] (build v)
  | ofNothing {e : Expression} : e ∈ ofNothing → Makes [] e
  | classes (names : List String) : Makes [] (classes names)
  | all (es : List Expression) : Makes es (all es)
  | any (es : List Expression) : Makes es (any es)
  | ofClasses (es : List Expression) : Makes es (ofClasses es)
  | negation {e e' : Expression} {log : CallLog} :
      ((negation e).run.run log).1 = .ok e' → Makes [e] e'
  | ofKind (kind : Connective) : Makes [] (Composite.ofKind kind).toExpression
  | perform {c c' : Composite} {result : Except QueryError Unit} (call : Call) (log : CallLog) :
      ((perform call c).run log).1 = (result, c') →
      Makes (c.toExpression :: call.child?.toList) c'.toExpression
  | resolve (e : Expression) (ctx : Context) (log : CallLog) :
      Makes [e] ((e.resolve ctx).run log).1.1

/-- An expression that steps lead to. -/
inductive Reachable : Expression → Prop
  | make {parts : List Expression} {e : Expression} :
      Makes parts e → (∀ part ∈ parts, Reachable part) → Reachable e

/-! ### What is reached is built -/

/-- What is asked of an attribute with a value is built. -/
lemma built_of_mem_ofNameAndValue {build : String → Value → Expression}
    (h : build ∈ ofNameAndValue) (name : String) (v : Value) : (build name v).Built := by
  have compared : ∀ comparator, (Expression.compare name comparator v).Built :=
    fun comparator => .compare name comparator (.literal v)
  have matched : ∀ placement, (Expression.wildcard name placement v).Built :=
    fun placement => .wildcard name placement (.literal v)
  have ruled : ∀ id, (Expression.rule name id v).Built := fun id => .rule name id (.literal v)
  have ordered : ∀ comparator, (Expression.all [notLeaf (.compare name comparator (.literal v)),
      Expression.present name]).Built := by
    intro comparator
    refine .all (List.forall_mem_cons.mpr ⟨(compared comparator).notLeaf, ?_⟩)
    exact List.forall_mem_singleton.mpr (.wildcard name .present (.literal .null))
  simp only [Expression.ofNameAndValue, List.mem_cons, List.not_mem_nil, or_false] at h
  rcases h with rfl | rfl | rfl | rfl | rfl | rfl | rfl | rfl | rfl | rfl | rfl | rfl | rfl | rfl
  · exact compared _
  · exact compared _
  · exact compared _
  · exact compared _
  · exact ordered _
  · exact ordered _
  · exact matched _
  · exact matched _
  · exact matched _
  · exact matched _
  · exact ruled _
  · exact (ruled _).notLeaf
  · exact ruled _
  · exact ruled _

/-- What is asked of an attribute alone is built. -/
lemma built_of_mem_ofName {build : String → Expression} (h : build ∈ ofName) (name : String) :
    (build name).Built := by
  have present : (Expression.present name).Built := .wildcard name .present (.literal .null)
  simp only [Expression.ofName, List.mem_cons, List.not_mem_nil, or_false] at h
  rcases h with rfl | rfl
  · exact present
  · exact present.notLeaf

/-- What is asked of a name in a directory is built. -/
lemma built_of_mem_ofValue {build : Value → Expression} (h : build ∈ ofValue) (v : Value) :
    (build v).Built := by
  simp only [Expression.ofValue, List.mem_cons, List.not_mem_nil, or_false] at h
  rcases h with rfl | rfl
  · exact .rule "memberOf" .inChain (.literal v)
  · exact .rule "member" .inChain (.literal v)

/-- What is asked of accounts and groups is built. -/
lemma built_of_mem_ofNothing {e : Expression} (h : e ∈ ofNothing) : e.Built := by
  have has : ∀ name mask, (Expression.bitwiseAnd name (maskValue mask)).Built :=
    fun name mask => .rule name .bitwiseAnd (.literal (maskValue mask))
  simp only [Expression.ofNothing, List.mem_cons, List.not_mem_nil, or_false] at h
  rcases h with rfl | rfl | rfl | rfl | rfl | rfl | rfl | rfl | rfl | rfl | rfl
  · exact has _ _
  · exact (has _ _).notLeaf
  · exact .compare _ _ _
  · exact has _ _
  · exact .compare _ _ _
  · exact .wildcard _ _ _
  · exact has _ _
  · exact (has _ _).notLeaf
  · exact has _ _
  · exact has _ _
  · exact has _ _

/-- A call on a composite that is built leaves one that is built, whatever comes of it, if the child
that it is to add is built. -/
lemma built_of_perform {c c' : Composite} {call : Call} {log : CallLog}
    {result : Except QueryError Unit} (h : ((perform call c).run log).1 = (result, c'))
    (hc : c.toExpression.Built) (hchild : ∀ child ∈ call.child?, child.Built) :
    c'.toExpression.Built := by
  cases call with
  | add child =>
      rw [Composite.run_perform_add] at h
      cases hadd : (c.add child).run.run log with
      | mk added mid =>
          rw [hadd] at h
          cases added with
          | error fault =>
              cases h
              exact hc
          | ok c'' =>
              cases h
              exact .add hc (hchild child rfl) (congrArg Prod.fst hadd)
  | setSymbol text =>
      rw [Composite.run_perform_setSymbol] at h
      cases hset : c.setSymbol text with
      | error fault =>
          rw [hset] at h
          cases h
          exact hc
      | ok c'' =>
          rw [hset] at h
          cases h
          exact .setSymbol hc hset
  | resolve ctx =>
      obtain ⟨c'', hrun, hresolve⟩ := Composite.run_perform_resolve c ctx log
      rw [hrun] at h
      cases h
      exact hresolve ▸ .resolve ctx log hc

/-- **A step makes something built of what is built.** -/
theorem Makes.built {parts : List Expression} {e : Expression} (h : Makes parts e)
    (hparts : ∀ part ∈ parts, part.Built) : e.Built := by
  cases h with
  | compare name comparator source => exact .compare name comparator source
  | wildcard name placement source => exact .wildcard name placement source
  | @matching name id source _ h =>
      rw [Expression.matching] at h
      split at h
      · cases h
        exact .rule name _ source
      · cases h
  | eqDeferred name d => exact .compare name .equal (.deferred d)
  | ofNameAndValue name v h => exact built_of_mem_ofNameAndValue h name v
  | ofName name h => exact built_of_mem_ofName h name
  | ofValue v h => exact built_of_mem_ofValue h v
  | ofNothing h => exact built_of_mem_ofNothing h
  | classes names =>
      refine .ofClasses fun e he => ?_
      obtain ⟨name, -, rfl⟩ := List.mem_map.mp he
      exact .compare "objectClass" .equal (.literal (.string name))
  | all => exact .all hparts
  | any => exact .any hparts
  | ofClasses => exact .ofClasses hparts
  | @negation child _ log h =>
      obtain ⟨c, hadd, rfl⟩ := Writing.map_eq_ok
        (show (Expression.negation child).run.run log = (.ok e, _) from Prod.ext h rfl)
      exact .add (.ofKind .not) (hparts child (List.mem_singleton_self child))
        (congrArg Prod.fst hadd)
  | ofKind kind => exact .ofKind kind
  | perform call log h =>
      obtain ⟨hc, hchild⟩ := List.forall_mem_cons.mp hparts
      exact built_of_perform h hc fun child hmem => hchild child (Option.mem_toList.mpr hmem)
  | resolve e ctx log => exact .resolve ctx log (hparts e (List.mem_singleton_self e))

/-- **Whatever is reached is built**, so that it has the shape. -/
theorem Reachable.built {e : Expression} (h : Reachable e) : e.Built := by
  induction h with
  | make h _ ih => exact h.built ih

/-! ### What composites are made of -/

/-- The children that a constructor or a builder makes a composite of, those that it is given or
those that it names, in order. -/
inductive Joins : Connective → List Expression → Expression → Prop
  | all (es : List Expression) : Joins .and es (all es)
  | any (es : List Expression) : Joins .or es (any es)
  | ofClasses (es : List Expression) : Joins .classes es (ofClasses es)
  | classes (names : List String) :
      Joins .classes (names.map fun name => eq "objectClass" (.string name)) (classes names)
  | ofKind (kind : Connective) : Joins kind [] (Composite.ofKind kind).toExpression
  | negation {e e' : Expression} {log : CallLog} :
      ((negation e).run.run log).1 = .ok e' → Joins .not [e] e'
  | greater (name : String) (v : Value) :
      Joins .and [.composite .not .no [atMost name v], present name] (greater name v)
  | less (name : String) (v : Value) :
      Joins .and [.composite .not .no [atLeast name v], present name] (less name v)
  | absent (name : String) : Joins .not [present name] (absent name)
  | notBitwiseAnd (name : String) (mask : Value) :
      Joins .not [bitwiseAnd name mask] (notBitwiseAnd name mask)
  | accountIsEnabled : Joins .not [accountIsDisabled] accountIsEnabled
  | isDistributionGroup : Joins .not [isSecurityGroup] isDistributionGroup

/-- A composite is not negated; a leaf is, and becomes the one child of the negation. -/
lemma run_negation (e : Expression) (log : CallLog) :
    ((∃ e', ((negation e).run.run log).1 = .ok e') ↔ e.isComposite = false)
      ∧ ∀ e', ((negation e).run.run log).1 = .ok e' → e' = .composite .not .no [e] := by
  cases e with
  | leaf l =>
      refine ⟨iff_of_true ⟨_, rfl⟩ rfl, ?_⟩
      rintro _ ⟨⟩
      rfl
  | composite kind symbol es =>
      have hrefused : ∃ fault, ((negation (.composite kind symbol es)).run.run log).1
          = .error fault := ⟨_, rfl⟩
      obtain ⟨fault, hfault⟩ := hrefused
      rw [hfault]
      refine ⟨iff_of_false (fun ⟨_, h⟩ => by cases h) (by simp [isComposite]), ?_⟩
      rintro _ ⟨⟩

/-- **A composite has the children that it is made of, in order.** -/
theorem Joins.exists_eq {kind : Connective} {es : List Expression} {e : Expression}
    (h : Joins kind es e) : ∃ symbol, e = .composite kind symbol es := by
  cases h with
  | negation h => exact ⟨_, (run_negation _ _).2 _ h⟩
  | _ => exact ⟨_, rfl⟩

/-! ### Composites anywhere -/

/-- The parts of several expressions are those of each. -/
@[simp] lemma mem_nodesAll {node : Expression} {es : List Expression} :
    node ∈ nodesAll es ↔ ∃ e ∈ es, node ∈ e.nodes := by
  induction es with
  | nil => simp [nodesAll]
  | cons e es ih => simp [nodesAll, ih]

/-- A composite anywhere in an expression of the shape has a mark that its connective allows, and
has one child at most, a leaf, if it is a negation. -/
lemma Shaped.of_mem_nodes {e : Expression} (h : e.Shaped) {kind : Connective} {symbol : Symbol}
    {es : List Expression} (hmem : .composite kind symbol es ∈ e.nodes) :
    symbol ∈ kind.allowed
      ∧ (kind = .not → es.length ≤ 1 ∧ ∀ child ∈ es, child.isComposite = false) := by
  induction h with
  | leaf l =>
      rw [nodes, List.mem_singleton] at hmem
      cases hmem
  | composite hsymbol hnot _ ih =>
      rw [nodes, List.mem_cons] at hmem
      rcases hmem with hself | hbelow
      · cases hself
        refine ⟨hsymbol, fun hkind => ?_⟩
        rcases hnot hkind with rfl | ⟨l, rfl⟩
        · simp
        · simp [isComposite]
      · obtain ⟨e, he, hnode⟩ := mem_nodesAll.mp hbelow
        exact ih e he hnode

/-- **Resolution leaves the children of a composite in place.** -/
theorem Later.composite {kind : Connective} {symbol : Symbol} {es : List Expression}
    {e' : Expression} (h : Later (.composite kind symbol es) e') :
    ∃ symbol' es', e' = .composite kind symbol' es' ∧ List.Forall₂ Later es es' := by
  induction h with
  | refl => exact ⟨symbol, es, rfl, forall₂_later_refl es⟩
  | tail _ hstep ih =>
      obtain ⟨symbol', es', rfl, hlater⟩ := ih
      obtain ⟨ctx, log, rfl⟩ := hstep
      rw [resolve_composite]
      exact ⟨_, _, rfl, forall₂_later_trans hlater (forall₂_later_resolveAll ctx es' log)⟩

/-! ### The shape of composites -/

/-- **Composites keep their shape, and refuse just the calls that would break it.** In whatever
steps lead to, every composite has a mark that its connective allows, and a negation has one child
at most, which is no composite. A composite has the children that it is made of, in order, and just
a composite is not negated. Calls on a composite leave its children in the order in which they were
added, and so does resolution at any depth. A child is refused just by a negation that has one
or would hold a composite, and a mark just by a connective that does not allow it; what is refused
leaves the composite as it was. -/
theorem composites_keep_shape :
    (∀ e, Reachable e → ∀ kind symbol es, .composite kind symbol es ∈ e.nodes →
        symbol ∈ kind.allowed
          ∧ (kind = .not → es.length ≤ 1 ∧ ∀ child ∈ es, child.isComposite = false))
      ∧ (∀ kind es e, Joins kind es e → ∃ symbol, e = .composite kind symbol es)
      ∧ (∀ e log, (∃ e', ((negation e).run.run log).1 = .ok e') ↔ e.isComposite = false)
      ∧ (∀ start done c, Run start done c →
          c.kind = start.kind
            ∧ List.Forall₂ Later (start.children ++ done.filterMap Call.child?) c.children)
      ∧ (∀ kind symbol es e', Later (.composite kind symbol es) e' →
          ∃ symbol' es', e' = .composite kind symbol' es' ∧ List.Forall₂ Later es es')
      ∧ (∀ c child log, let left := ((perform (.add child) c).run log).1
          ((∃ fault, left.1 = .error fault) ↔
              c.kind = .not ∧ (c.children ≠ [] ∨ child.isComposite = true))
            ∧ (left.1 = .ok () → left.2.children = c.children ++ [child])
            ∧ ∀ fault, left.1 = .error fault → left.2 = c)
      ∧ (∀ c text log, let left := ((perform (.setSymbol text) c).run log).1
          ((∃ fault, left.1 = .error fault) ↔ text ∉ c.kind.allowed.map Symbol.text)
            ∧ (left.1 = .ok () → left.2.symbol.text = text ∧ left.2.children = c.children)
            ∧ ∀ fault, left.1 = .error fault → left.2 = c) := by
  refine ⟨fun e he kind symbol es => he.built.shaped.of_mem_nodes,
    fun kind es e h => h.exists_eq, fun e log => (run_negation e log).1,
    fun start done c hrun => hrun.forall₂_later, fun kind symbol es e' h => h.composite, ?_, ?_⟩
  · intro c child log
    obtain ⟨hiff, hleft⟩ := Composite.perform_add c child log
    refine ⟨hiff, ?_⟩
    rcases hleft with hok | ⟨fault, herror⟩
    · rw [hok]
      exact ⟨fun _ => rfl, nofun⟩
    · rw [herror]
      exact ⟨nofun, fun _ _ => rfl⟩
  · intro c text log
    obtain ⟨hiff, hleft⟩ := Composite.perform_setSymbol c text log
    refine ⟨hiff, ?_⟩
    rcases hleft with ⟨s, -, htext, hok⟩ | ⟨fault, herror⟩
    · rw [hok]
      exact ⟨fun _ => ⟨htext, rfl⟩, nofun⟩
    · rw [herror]
      exact ⟨nofun, fun _ _ => rfl⟩

/-- A test for more than a number holds a negation of one leaf; composites of two classes have these
in the order in which they are given, and a leaf is negated; and a selector of classes keeps the two
that are added in order, having refused the mark of a negation in between. -/
theorem composites_keep_shape_selector :
    let user := eq "objectClass" (.string "user")
    let group := eq "objectClass" (.string "group")
    (∀ kind symbol es, .composite kind symbol es ∈ (greater "logonCount" (.integer 5)).nodes →
        kind = .not → es.length ≤ 1)
      ∧ (∃ symbol, all [user, group] = .composite .and symbol [user, group])
      ∧ (∃ symbol, any [user, group] = .composite .or symbol [user, group])
      ∧ (∃ symbol, ofClasses [user, group] = .composite .classes symbol [user, group])
      ∧ (∃ symbol, classes ["user", "group"] = .composite .classes symbol [user, group])
      ∧ (∃ e', ((negation user).run.run []).1 = .ok e'
        ∧ ∃ symbol, e' = .composite .not symbol [user])
      ∧ ∃ c, Run (.ofKind .classes) [.add user, .add group] c
        ∧ List.Forall₂ Later [user, group] c.children := by
  intro user group
  obtain ⟨hshape, hjoins, hnegation, hrun, -⟩ := composites_keep_shape
  have hreachable : Reachable (greater "logonCount" (.integer 5)) :=
    .make (.ofNameAndValue "logonCount" (.integer 5) (by simp [ofNameAndValue])) nofun
  have hselector : Run (.ofKind .classes) [.add user, .add group]
      ⟨.classes, .any, [user, group]⟩ := by
    have hfirst : Run (.ofKind .classes) [.add user] ⟨.classes, .any, [user]⟩ :=
      .succeed (.add user) [] .start rfl
    have hrefused : Run (.ofKind .classes) [.add user] ⟨.classes, .any, [user]⟩ :=
      .fail (.setSymbol "!") [] hfirst rfl
    exact .succeed (.add group) [] hrefused rfl
  obtain ⟨e', he'⟩ := (hnegation user []).mpr rfl
  refine ⟨fun kind symbol es hmem hkind => ?_, hjoins _ _ _ (.all _), hjoins _ _ _ (.any _),
    hjoins _ _ _ (.ofClasses _), hjoins _ _ _ (.classes ["user", "group"]),
    ⟨e', he', hjoins _ _ _ (.negation he')⟩, _, hselector, (hrun _ _ _ hselector).2⟩
  exact ((hshape _ hreachable kind symbol es hmem).2 hkind).1

end DirectoryLens.Expression
