/-
Searches compiled under settings that refuse what the schema does not map.

* `Compiler.ofSchema`: a compiler under a schema, strict or not;
* `Compiler.finish`: what is done with a resolved expression, strict or not;
* `compileSelecting_strict`: strictness refuses requests, and changes none;
* `ObjectSchema.Covers`: some name is mapped to a directory name;
* `strict_request_names`: a strict request names what the schema covers, except for attributes that
  are mapped to no name at all and for selected names that are not mapped.
-/
import DirectoryLens.Proofs.Expression.Names
import DirectoryLens.Proofs.Expression.Strict
import DirectoryLens.Proofs.Search.Attributes
import DirectoryLens.Proofs.Search.Parts

namespace DirectoryLens

open Text

namespace Compiler

open Expression

variable {registry : Registry} {config : Config} {s : ObjectSchema} {e : Expression}
  {selected : List String} {log mid : CallLog} {request : SearchRequest}

/-! ### Two compilers -/

/-- A compiler under a schema, which refuses what the schema does not map when it is strict. -/
def ofSchema (registry : Registry) (config : Config) (s : ObjectSchema) (strict : Bool) :
    Compiler :=
  ⟨registry, { config with strict }, some s⟩

/-- A resolved expression joined with what the schema asks of all objects. -/
def joinScoping (c : Compiler) (e : Expression) : Writing Expression :=
  match c.schema.bind (·.filter) with
  | none => return e
  | some scoping => do
    let scoping ← resolved c.scopingContext scoping
    return .all [scoping, e]

/-- The request for an expression that has been resolved. -/
def finish (c : Compiler) (selected : List String) (e : Expression) : Writing SearchRequest := do
  let whole ← c.joinScoping e
  let f ← whole.filter
  return c.requestOf selected f

/-- A search is compiled by the resolution of what is searched for, and what is done with it. -/
lemma compileSelecting_eq_finish (c : Compiler) (e : Expression) (selected : List String) :
    c.compileSelecting e selected = resolved c.context e >>= c.finish selected := by
  rw [compileSelecting_eq, withScoping, bind_assoc]
  rfl

/-- Strictness ends with the resolution: what the schema asks of all objects is not subject to
it. -/
lemma finish_strict (registry : Registry) (config : Config) (s : ObjectSchema)
    (selected : List String) :
    (ofSchema registry config s true).finish selected
      = (ofSchema registry config s false).finish selected :=
  rfl

/-- Where every attribute is mapped, strictness makes no difference to the search. -/
lemma compileSelecting_of_mapped (h : ∀ l ∈ e.leaves, l.Mapped s) :
    ((ofSchema registry config s true).compileSelecting e selected).run.run log
      = ((ofSchema registry config s false).compileSelecting e selected).run.run log := by
  rw [compileSelecting_eq_finish, compileSelecting_eq_finish, finish_strict]
  exact Writing.run_bind_congr (run_resolved_congr (resolve_of_mapped h log))

/-- A strict compiler refuses an attribute that is not mapped, unless the other one refuses the
search alike. -/
lemma compileSelecting_of_firstUnmapped (registry : Registry) (config : Config)
    (selected : List String) (log : CallLog) {l : Leaf} (h : e.firstUnmapped? s = some l) :
    ∃ fault log', ((ofSchema registry config s true).compileSelecting e selected).run.run log
        = (.error fault, log')
      ∧ (fault = l.unmapped s
        ∨ (((ofSchema registry config s false).compileSelecting e selected).run.run log).1
          = .error fault) := by
  have herror : ∀ {strict : Bool} {fault : QueryError},
      ((e.resolve ⟨registry, some s, strict⟩).run log).1.2 = .error fault →
      ∃ log', ((ofSchema registry config s strict).compileSelecting e selected).run.run log
        = (.error fault, log') := by
    intro strict fault hfault
    rw [compileSelecting_eq_finish]
    have hrun := run_resolved ⟨registry, some s, strict⟩ e log
    revert hrun hfault
    cases (e.resolve ⟨registry, some s, strict⟩).run log with
    | mk p mid =>
        obtain ⟨e', result⟩ := p
        rintro ⟨⟩ hrun
        exact ⟨mid, Writing.run_bind_of_error hrun⟩
  rcases resolve_of_firstUnmapped registry h log with
    hstrict | ⟨fault, hstrict, hlenient⟩
  · obtain ⟨log', hrun⟩ := herror hstrict
    exact ⟨_, log', hrun, .inl rfl⟩
  · obtain ⟨log', hrun⟩ := herror hstrict
    obtain ⟨log'', hrun'⟩ := herror hlenient
    exact ⟨fault, log', hrun, .inr (congrArg Prod.fst hrun')⟩

/-- A strict compiler has met mapped attributes only, when it gives a request. -/
lemma mapped_of_compileSelecting {c : Compiler} (hs : c.schema = some s)
    (hstrict : c.config.strict = true)
    (h : (c.compileSelecting e selected).run.run log = (.ok request, mid)) :
    ∀ l ∈ e.leaves, l.Mapped s := by
  rw [compileSelecting_eq_finish] at h
  obtain ⟨e', _, he, -⟩ := Writing.bind_eq_ok h
  rw [resolved_eq_ok_iff, context, hs, hstrict] at he
  exact mapped_of_resolve he

/-- **Strictness refuses requests, and changes none.** What a strict compiler makes of an expression
another one makes of it too. What another one makes of it a strict compiler makes of it when the
schema maps every attribute that it tests, and else it refuses the first that is not mapped. The
filter that the schema asks of all objects may test what it does not map. -/
theorem compileSelecting_strict (registry : Registry) (config : Config) (s : ObjectSchema)
    (e : Expression) (selected : List String) (log : CallLog) :
    let run strict :=
      ((ofSchema registry config s strict).compileSelecting e selected).run.run log
    (∀ request log', run true = (.ok request, log') → run false = (.ok request, log'))
      ∧ (∀ request log', run false = (.ok request, log') →
        ((∀ l ∈ e.leaves, l.Mapped s) → run true = (.ok request, log'))
          ∧ ∀ l, e.firstUnmapped? s = some l →
            (run true).1 = .error (.unmappedAttribute l.operand.name s.id))
      ∧ ((∀ l ∈ e.leaves, l.Mapped s) → run true = run false) := by
  intro run
  have hmapped : (∀ l ∈ e.leaves, l.Mapped s) → run true = run false :=
    compileSelecting_of_mapped
  refine ⟨?_, ?_, hmapped⟩
  · intro request log' hstrict
    rw [← hmapped (mapped_of_compileSelecting rfl rfl hstrict), hstrict]
  · intro request log' hlenient
    refine ⟨fun h => (hmapped h).trans hlenient, fun l hfirst => ?_⟩
    obtain ⟨fault, log'', hrefused, rfl | hlenient'⟩ :=
      compileSelecting_of_firstUnmapped registry config selected log hfirst
    · exact congrArg Prod.fst hrefused
    · cases (congrArg Prod.fst hlenient).symm.trans hlenient'

/-- A query that tests a class and a name besides a flag is compiled under a schema with the flag
alone, and refused for the class when that is strict. -/
theorem compileSelecting_strict_flagQuery :
    let run strict :=
      ((ofSchema .builtin .default flagSchema strict).compileSelecting flagQuery []).run.run []
    (∃ request, run false = (.ok request, []))
      ∧ (run true).1 = .error (.unmappedAttribute "objectClass" "ad/user") := by
  intro run
  have hlenient : ∃ request, run false = (.ok request, []) := ⟨_, rfl⟩
  obtain ⟨request, hrequest⟩ := hlenient
  exact ⟨⟨request, hrequest⟩, ((compileSelecting_strict .builtin .default flagSchema flagQuery []
    []).2.1 request [] hrequest).2 _ rfl⟩

end Compiler

/-! ### Directory names that the schema covers -/

namespace ObjectSchema

/-- Some name is mapped to a directory name, up to case. -/
def Covers (s : ObjectSchema) (directoryName : String) : Prop :=
  s.namesMappedTo directoryName ≠ []

instance (s : ObjectSchema) (directoryName : String) : Decidable (s.Covers directoryName) :=
  inferInstanceAs (Decidable (_ ≠ []))

variable {s : ObjectSchema} {name d : String}

/-- What is covered is so in any case of its letters. -/
lemma covers_congr {d' : String} (h : fold d = fold d') : s.Covers d ↔ s.Covers d' := by
  rw [Covers, Covers, namesMappedTo, namesMappedTo, h]

/-- What a name is mapped to is covered. -/
lemma covers_of_directoryName? (h : s.directoryName? name = some d) : s.Covers d := by
  obtain ⟨n, hn, -⟩ := exists_mem_namesMappedTo h
  exact List.ne_nil_of_mem hn

/-- What stands for a name is covered, unless the name is not mapped and stands for itself. -/
lemma covers_directoryName_iff :
    s.Covers (s.directoryName name) ↔ (s.hasAttribute name = false → s.Covers name) := by
  rw [directoryName, hasAttribute]
  cases hd : s.directoryName? name with
  | none => simp
  | some d => simpa using covers_of_directoryName? hd

/-- What a mapped name is written with is covered, unless the name is mapped to no name at all and
is written as it is. -/
lemma covers_writtenName_iff (h : s.hasAttribute name = true) :
    s.Covers (s.writtenName name) ↔ (s.directoryName? name = some "" → s.Covers name) := by
  obtain ⟨d, hd⟩ := Option.isSome_iff_exists.mp h
  rw [writtenName, directoryName, hd, Option.getD_some]
  by_cases hempty : d = ""
  · simp [hempty]
  · simpa [hempty] using covers_of_directoryName? hd

/-- Several names are covered when each is. -/
lemma forall_covers_directoryNames_iff {names : List String} :
    (∀ d ∈ s.directoryNames names, s.Covers d) ↔ ∀ n ∈ names, s.Covers (s.directoryName n) := by
  constructor
  · intro h n hn
    obtain ⟨d, hd, hfold⟩ := List.mem_map.mp (mem_fold_directoryNames.mpr ⟨n, hn, rfl⟩)
    exact (covers_congr hfold).mp (h d hd)
  · intro h d hd
    obtain ⟨n, hn, hfold⟩ := mem_fold_directoryNames.mp (List.mem_map_of_mem hd)
    exact (covers_congr hfold).mp (h n hn)

end ObjectSchema

namespace Compiler

open Expression

variable {c : Compiler} {s : ObjectSchema} {e : Expression} {selected : List String}
  {log log' mid : CallLog} {request : SearchRequest}

/-- Alone, an expression is written with the names that the schema has its attributes written
with. -/
lemma names_of_alone (hs : c.schema = some s)
    (h : (c.alone.compileSelecting e selected).run.run log = (.ok request, mid)) :
    request.filter.names = e.leaves.map fun l => s.writtenName l.operand.name := by
  obtain ⟨e', f, he, hf, rfl⟩ := alone_eq_ok_iff.mp h
  rw [resolved_eq_ok_iff, context, hs] at he
  exact names_of_resolve he (hf [])

/-- **What a strict request names.** The expression's part of its filter names what the schema
covers, except for attributes that are mapped to no name at all: they are written as they are. The
attributes that are asked for are covered except for selected names that are not mapped: they are
not refused. -/
theorem strict_request_names (hs : c.schema = some s) (hstrict : c.config.strict = true)
    (h : (c.compileSelecting e selected).run.run log = (.ok request, log')) :
    ∃ f mid, (c.alone.compileSelecting e selected).run.run log
        = (.ok { request with filter := f }, mid)
      ∧ (s.filter = none → request.filter = f)
      ∧ (s.filter ≠ none → ∃ g, request.filter = .composite .all [g, f])
      ∧ ((∀ name ∈ f.names, s.Covers name) ↔
          ∀ l ∈ e.leaves, s.directoryName? l.operand.name = some "" → s.Covers l.operand.name)
      ∧ ((∀ name ∈ request.attributes, s.Covers name) ↔
          ∀ n ∈ selected, s.hasAttribute n = false → s.Covers n) := by
  obtain ⟨f, mid, halone, hnone, hsome⟩ := exists_alone_of_compileSelecting h
  rw [hs, Option.bind_some] at hnone hsome
  have hmapped := mapped_of_compileSelecting hs hstrict h
  have hnames : f.names = e.leaves.map fun l => s.writtenName l.operand.name :=
    names_of_alone hs halone
  have hattributes : request.attributes = s.directoryNames selected := by
    rw [attributes_of_compileSelecting h, attributes, hs]
  refine ⟨f, mid, halone, hnone, hsome, ?_, ?_⟩
  · rw [hnames, List.forall_mem_map]
    exact forall₂_congr fun l hl => ObjectSchema.covers_writtenName_iff (hmapped l hl)
  · rw [hattributes, ObjectSchema.forall_covers_directoryNames_iff]
    exact forall₂_congr fun n _ => ObjectSchema.covers_directoryName_iff

/-- What a strict search for a flag names is covered. -/
theorem strict_request_names_flag :
    ∃ request, ((ofSchema .builtin .default flagSchema true).compileSelecting
        (eq "Disabled" (.boolean false)) ["DISABLED"]).run.run [] = (.ok request, [])
      ∧ (∀ name ∈ request.filter.names, flagSchema.Covers name)
      ∧ ∀ name ∈ request.attributes, flagSchema.Covers name := by
  have hrequest : ∃ request, ((ofSchema .builtin .default flagSchema true).compileSelecting
      (eq "Disabled" (.boolean false)) ["DISABLED"]).run.run [] = (.ok request, []) := ⟨_, rfl⟩
  obtain ⟨request, hrequest⟩ := hrequest
  obtain ⟨f, mid, -, hfilter, -, hnames, hattributes⟩ := strict_request_names rfl rfl hrequest
  refine ⟨request, hrequest, ?_, hattributes.mpr (by decide)⟩
  rw [hfilter rfl]
  exact hnames.mpr (by decide)

/-- A strict search may ask for what the schema does not map. -/
theorem not_every_strict_request_covered :
    ¬ ∀ (c : Compiler) (s : ObjectSchema), c.schema = some s → c.config.strict = true →
      ∀ (e : Expression) (selected : List String) (log log' : CallLog) (request : SearchRequest),
        (c.compileSelecting e selected).run.run log = (.ok request, log') →
      ∀ f mid, (c.alone.compileSelecting e selected).run.run log
          = (.ok { request with filter := f }, mid) →
        (∀ name ∈ f.names, s.Covers name) ∧ ∀ name ∈ request.attributes, s.Covers name := by
  intro h
  have hcovers := (h (ofSchema .builtin .default flagSchema true) _ rfl rfl
    (eq "Disabled" (.boolean false)) ["cn"] [] [] _ rfl _ [] rfl).2 "cn" (by decide)
  revert hcovers
  decide

end Compiler

end DirectoryLens
