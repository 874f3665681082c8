/-
Searches and entries whose names are spelled in another case.

* `RanAlike`: two runs that made the same calls and came to related results;
* `ObjectSchema.forall₂_directoryNames`: names in another spelling have the same directory names, up
  to case;
* `Compiler.compileSelecting_respelled`: an expression is compiled as it is in other spellings of
  its attributes;
* `Compiler.compileSelecting_reselected`: other spellings of the selected names leave all of a
  request but the spelling of the attributes that it asks for;
* `ObjectSchema.names_in_another_case`: where the schema decides, the case of a name is immaterial.
-/
import DirectoryLens.Proofs.Entry.Spelling
import DirectoryLens.Proofs.Expression.Spelling
import DirectoryLens.Proofs.Search.Attributes
import DirectoryLens.Proofs.Search.Parts

namespace DirectoryLens

open Text

/-! ### Runs -/

section Runs

variable {α β α' β' : Type} {R : α → β → Prop} {S : α' → β' → Prop}
  {E : QueryError → QueryError → Prop}

/-- Two runs that made the same calls, and succeeded with related values or failed with related
errors. -/
def RanAlike (R : α → β → Prop) (E : QueryError → QueryError → Prop)
    (ran : Except QueryError α × CallLog) (ran' : Except QueryError β × CallLog) : Prop :=
  ran'.2 = ran.2 ∧ ExceptRel R E ran.1 ran'.1

/-- A run is like itself. -/
lemma RanAlike.refl {R : α → α → Prop} (hR : ∀ a, R a a) (hE : ∀ fault, E fault fault)
    (ran : Except QueryError α × CallLog) : RanAlike R E ran ran :=
  ⟨rfl, .refl hR hE ran.1⟩

/-- Runs that are alike go on alike. -/
lemma RanAlike.bind {m : Writing α} {m' : Writing β} {k : α → Writing α'} {k' : β → Writing β'}
    {log : CallLog} (h : RanAlike R E (m.run.run log) (m'.run.run log))
    (hk : ∀ a b log, R a b → RanAlike S E ((k a).run.run log) ((k' b).run.run log)) :
    RanAlike S E ((m >>= k).run.run log) ((m' >>= k').run.run log) := by
  cases hm : m.run.run log with
  | mk result mid =>
      cases hm' : m'.run.run log with
      | mk result' mid' =>
          rw [hm, hm'] at h
          obtain ⟨hmid, hresult⟩ := h
          obtain rfl : mid' = mid := hmid
          cases hresult with
          | error hfault =>
              rw [Writing.run_bind_of_error hm, Writing.run_bind_of_error hm']
              exact ⟨rfl, .error hfault⟩
          | ok hab =>
              rw [Writing.run_bind_of_ok hm, Writing.run_bind_of_ok hm']
              exact hk _ _ _ hab

/-- A run that goes on in two ways that are alike is alike in both. -/
lemma RanAlike.bind_same {m : Writing α} {k : α → Writing α'} {k' : α → Writing β'}
    {log : CallLog} (hE : ∀ fault, E fault fault)
    (hk : ∀ a log, RanAlike S E ((k a).run.run log) ((k' a).run.run log)) :
    RanAlike S E ((m >>= k).run.run log) ((m >>= k').run.run log) := by
  refine (RanAlike.refl (R := Eq) (fun _ => rfl) hE (m.run.run log)).bind ?_
  rintro a _ mid rfl
  exact hk a mid

end Runs

/-! ### Directory names -/

namespace ObjectSchema

/-- A name in another spelling has the same directory name, up to case. -/
lemma directoryName_respelled (s : ObjectSchema) {name name' : String} (h : CaseAlike name name') :
    CaseAlike (s.directoryName name) (s.directoryName name') := by
  rw [directoryName, directoryName, ← directoryName?_congr h.fold_eq s]
  cases s.directoryName? name with
  | none => exact h
  | some d => exact .refl d

/-- **Names in another spelling have the same directory names**, up to case. -/
theorem forall₂_directoryNames (s : ObjectSchema) {names names' : List String}
    (h : List.Forall₂ CaseAlike names names') :
    List.Forall₂ CaseAlike (s.directoryNames names) (s.directoryNames names') := by
  refine List.rel_foldl (P := List.Forall₂ CaseAlike) ?_ .nil h
  intro found found' hfound name name' hname
  have hd := s.directoryName_respelled hname
  have hany : (found.any fun f => fold f == fold (s.directoryName name))
      = found'.any fun f => fold f == fold (s.directoryName name') :=
    any_eq_of_forall₂ hfound fun f f' hf => by rw [hf.fold_eq, hd.fold_eq]
  dsimp only
  rw [hany]
  split
  · exact hfound
  · exact List.rel_append hfound (.cons hd .nil)

end ObjectSchema

/-! ### Requests -/

namespace Compiler

open Expression

variable {c : Compiler} {s : ObjectSchema} {e e' : Expression} {selected selected' : List String}

/-- An expression is resolved as it is in other spellings of its attributes, or refused with the
same code. -/
lemma resolved_respelled {ctx : Context} (hctx : ctx.schema = some s)
    (h : Leafwise (Leaf.Respelled s) e e') (log : CallLog) :
    RanAlike (fun e e' => e'.filter = e.filter) QueryError.SameCode
      ((resolved ctx e).run.run log) ((resolved ctx e').run.run log) := by
  obtain ⟨hlog, hresult, hfilter⟩ := resolve_respelled hctx h log
  rw [run_resolved, run_resolved]
  cases hrun : (e.resolve ctx).run log with
  | mk p mid =>
      cases hrun' : (e'.resolve ctx).run log with
      | mk p' mid' =>
          obtain ⟨e₁, result⟩ := p
          obtain ⟨e₁', result'⟩ := p'
          rw [hrun, hrun'] at hlog hresult hfilter
          cases hresult with
          | error hcode => exact ⟨hlog, .error hcode⟩
          | ok => exact ⟨hlog, .ok (hfilter rfl)⟩

/-- What is searched for is joined to what the schema asks of all objects in other spellings of its
attributes as well. -/
lemma withScoping_respelled (hc : c.schema = some s) (h : Leafwise (Leaf.Respelled s) e e')
    (log : CallLog) :
    RanAlike (fun e e' => e'.filter = e.filter) QueryError.SameCode
      ((c.withScoping e).run.run log) ((c.withScoping e').run.run log) := by
  refine (resolved_respelled hc h log).bind fun e₁ e₁' mid hfilter => ?_
  cases c.schema.bind (·.filter) with
  | none => exact ⟨rfl, .ok hfilter⟩
  | some scoping =>
      refine RanAlike.bind_same .refl fun scoping' log' => ?_
      exact ⟨rfl, .ok (filter_composite_congr (.cons rfl (.cons hfilter .nil)) fun _ => rfl)⟩

/-- **An expression is compiled as it is in other spellings of its attributes**, where the schema
maps these: into the same request, or an error of the same code, and with the same calls. -/
theorem compileSelecting_respelled (hc : c.schema = some s)
    (h : Leafwise (Leaf.Respelled s) e e') (selected : List String) (log : CallLog) :
    RanAlike Eq QueryError.SameCode ((c.compileSelecting e selected).run.run log)
      ((c.compileSelecting e' selected).run.run log) := by
  rw [compileSelecting_eq, compileSelecting_eq]
  refine (withScoping_respelled hc h log).bind fun whole whole' mid hfilter => ?_
  rw [hfilter]
  exact .refl (fun _ => rfl) .refl _

/-- **Other spellings of the selected names leave all of a request** but the spelling of the
attributes that it asks for. -/
theorem compileSelecting_reselected (hc : c.schema = some s)
    (h : List.Forall₂ CaseAlike selected selected') (e : Expression) (log : CallLog) :
    RanAlike (fun request request' => request' = { request with attributes := request'.attributes }
        ∧ List.Forall₂ CaseAlike request.attributes request'.attributes) Eq
      ((c.compileSelecting e selected).run.run log)
      ((c.compileSelecting e selected').run.run log) := by
  have hattributes : List.Forall₂ CaseAlike (c.attributes selected) (c.attributes selected') := by
    rw [attributes, attributes, hc]
    exact s.forall₂_directoryNames h
  rw [compileSelecting_eq, compileSelecting_eq]
  refine RanAlike.bind_same (fun _ => rfl) fun whole mid => ?_
  refine RanAlike.bind_same (fun _ => rfl) fun f log' => ?_
  exact ⟨rfl, .ok ⟨rfl, hattributes⟩⟩

end Compiler

namespace ObjectSchema

open Expression

/-- **Where the schema decides, the case of a name is immaterial.** An expression is compiled as it
is in other spellings of the attributes that the schema maps, up to the words of an error. An entry
is hydrated as it is in other spellings of its names, and so is one that is made of pairs. Other
spellings of the selected names give the same values in the same order, each under the first
spelling of its name, and the same request, up to the spelling of the attributes that it asks
for. -/
theorem names_in_another_case (registry : Registry) (config : Config) (s : ObjectSchema) :
    (∀ e e', Leafwise (Leaf.Respelled s) e e' → ∀ selected log,
      RanAlike Eq QueryError.SameCode
        ((Compiler.compileSelecting ⟨registry, config, some s⟩ e selected).run.run log)
        ((Compiler.compileSelecting ⟨registry, config, some s⟩ e' selected).run.run log))
    ∧ (∀ selected : Option (List String),
      (∀ entry entry' : Entry, entry'.dn = entry.dn →
        List.Forall₂ KeyedAlike entry.toList entry'.toList →
        Hydrator.hydrate ⟨registry, some s, selected⟩ entry'
          = Hydrator.hydrate ⟨registry, some s, selected⟩ entry)
      ∧ ∀ pairs pairs', List.Forall₂ KeyedAlike pairs pairs' →
        Hydrator.hydrate ⟨registry, some s, selected⟩ (.ofPairs pairs')
          = Hydrator.hydrate ⟨registry, some s, selected⟩ (.ofPairs pairs))
    ∧ ∀ selected selected' : List String, List.Forall₂ CaseAlike selected selected' →
      (∀ e log,
        RanAlike
          (fun request request' => request' = { request with attributes := request'.attributes }
            ∧ List.Forall₂ CaseAlike request.attributes request'.attributes) Eq
          ((Compiler.compileSelecting ⟨registry, config, some s⟩ e selected).run.run log)
          ((Compiler.compileSelecting ⟨registry, config, some s⟩ e selected').run.run log))
      ∧ ∀ entry,
        ExceptRel (fun out out' => out'.dn = out.dn
            ∧ List.Forall₂ KeyedAlike out.attributes.toList out'.attributes.toList)
          Hydrator.FaultAlike
          (Hydrator.hydrate ⟨registry, some s, some selected⟩ entry)
          (Hydrator.hydrate ⟨registry, some s, some selected'⟩ entry)
        ∧ ∀ out, Hydrator.hydrate ⟨registry, some s, some selected'⟩ entry = .ok out →
          ∀ k ∈ out.attributes.keys, selected'.find? (fun q => fold q == fold k) = some k := by
  refine ⟨fun e e' h selected log => Compiler.compileSelecting_respelled rfl h selected log,
    fun selected => ⟨fun entry entry' hdn h => Hydrator.hydrate_respelled _ rfl hdn h,
      fun pairs pairs' h => ?_⟩,
    fun selected selected' h => ⟨fun e log => Compiler.compileSelecting_reselected rfl h e log,
      fun entry => ⟨Hydrator.hydrate_reselected registry s h entry,
        fun out hout k hk => Hydrator.find?_selection_of_mem_keys rfl hout hk⟩⟩⟩
  refine Hydrator.hydrate_respelled _ rfl ?_ (Entry.forall₂_ofPairs h)
  simp [Entry.ofPairs]

/-- A flag is searched for and read in any spelling, of its attribute as well as of its own name. -/
theorem names_in_another_case_flagSchema :
    (∃ request, (Compiler.flagCompiler.compileSelecting (eq "Disabled" (.boolean true)) []).run.run
          [] = (.ok request, [])
        ∧ (Compiler.flagCompiler.compileSelecting (eq "DISABLED" (.boolean true)) []).run.run []
          = (.ok request, []))
      ∧ Hydrator.hydrate ⟨.builtin, some flagSchema, some ["CN", "Disabled"]⟩
          (.ofPairs [("USERACCOUNTCONTROL", [.text "514"]), ("ObjectGUID", [.binary [0x01]]),
            ("Cn", [.text "jdoe"])])
        = .ok ⟨none, ⟨[("Disabled", .boolean true), ("CN", .string "jdoe")]⟩⟩
      ∧ ∃ out, Hydrator.hydrate ⟨.builtin, some flagSchema, some ["cn", "DISABLED", "CN"]⟩
            Compiler.accountEntry = .ok out
        ∧ List.Forall₂ KeyedAlike [("Disabled", .boolean true), ("CN", .string "jdoe")]
            out.attributes.toList
        ∧ ∀ k ∈ out.attributes.keys,
          ["cn", "DISABLED", "CN"].find? (fun q => fold q == fold k) = some k := by
  obtain ⟨hexpression, hentry, hselection⟩ :=
    names_in_another_case .builtin .default flagSchema
  have hrespelled : Leafwise (Leaf.Respelled flagSchema) (eq "Disabled" (.boolean true))
      (eq "DISABLED" (.boolean true)) :=
    .leaf (.name (d := "userAccountControl") (by decide) rfl (by decide))
  obtain ⟨request, hrequest⟩ : ∃ request, (Compiler.flagCompiler.compileSelecting
      (eq "Disabled" (.boolean true)) []).run.run [] = (.ok request, []) := ⟨_, rfl⟩
  have hran := hexpression _ _ hrespelled [] []
  have hread : Hydrator.hydrate ⟨.builtin, some flagSchema, some ["CN", "Disabled", "cn"]⟩
      Compiler.accountEntry
      = .ok ⟨none, ⟨[("Disabled", .boolean true), ("CN", .string "jdoe")]⟩⟩ := rfl
  obtain ⟨-, hreselected⟩ := hselection ["CN", "Disabled", "cn"] ["cn", "DISABLED", "CN"]
    (.cons (by decide) (.cons (by decide) (.cons (by decide) .nil)))
  obtain ⟨halike, hfirst⟩ := hreselected Compiler.accountEntry
  rw [hread] at halike
  refine ⟨⟨request, hrequest, ?_⟩, ?_, ?_⟩
  · change RanAlike Eq _ ((Compiler.flagCompiler.compileSelecting _ []).run.run []) _ at hran
    rw [hrequest] at hran
    change (Compiler.compileSelecting ⟨.builtin, .default, some flagSchema⟩ _ []).run.run [] = _
    generalize StateT.run _ _ = ran at hran ⊢
    obtain ⟨result, mid⟩ := ran
    obtain ⟨rfl, hresult⟩ := hran
    cases hresult with
    | ok heq => rw [heq]
  · refine ((hentry (some ["CN", "Disabled"])).2 [("useraccountcontrol", [.text "514"]),
      ("objectGUID", [.binary [0x01]]), ("cn", [.text "jdoe"])] _ ?_).trans rfl
    exact .cons ⟨by decide, rfl⟩ (.cons ⟨by decide, rfl⟩ (.cons ⟨by decide, rfl⟩ .nil))
  · generalize Hydrator.hydrate _ _ = result at halike hfirst ⊢
    cases halike with
    | @ok _ out h => exact ⟨out, rfl, h.2, hfirst out rfl⟩

end ObjectSchema

end DirectoryLens
