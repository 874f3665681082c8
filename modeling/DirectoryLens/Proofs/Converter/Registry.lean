/-
The table of converters as it is used, call by call.

* `Registry.NameShape`: a letter, then letters, digits and underscores;
* `Registry.Acting`: computations on a table, what was changed being kept when they fail;
* `Registry.Call`, `Call.act`: what can be asked of a table, and what it does then, step by step;
* `perform_register`: a registration in place is that of a copy, and one that fails leaves the
  table;
* `Registry.Made`, `Registry.Keyed`: the tables that there are, and what holds of all of them;
* `perform_cases`: a call registers one name, or leaves the table;
* `after_induction`: what registrations preserve holds after any calls;
* `Registry.write_once`: names are registered once, and what is found under them stays.

The invariant is that the key of an entry is the folded name that stands in it (`Registry.Keyed`).
-/
import DirectoryLens.Converter.Registry
import DirectoryLens.Proofs.Text.Ascii

namespace DirectoryLens

open Text

namespace Registry

/-! ### Names -/

/-- A capital or small ASCII letter. -/
def IsLetter (c : Char) : Prop :=
  ('A' ≤ c ∧ c ≤ 'Z') ∨ ('a' ≤ c ∧ c ≤ 'z')

/-- A text is a letter, followed by letters, digits and underscores. -/
def NameShape (name : String) : Prop :=
  ∃ first rest, name.toList = first :: rest ∧ IsLetter first
    ∧ ∀ c ∈ rest, IsLetter c ∨ ('0' ≤ c ∧ c ≤ '9') ∨ c = '_'

/-- Letters are tested for by their ranges. -/
lemma isAlpha_iff {c : Char} : c.isAlpha = true ↔ IsLetter c := by
  show (c.isUpper || c.isLower) = true ↔ IsLetter c
  rw [Bool.or_eq_true, isUpper_iff, isLower_iff]
  rfl

/-- What is tested for is the shape of a name. -/
lemma isName_iff {name : String} : isName name = true ↔ NameShape name := by
  have hletter : ∀ {c : Char}, (c.isAlphanum || decide (c = '_')) = true
      ↔ IsLetter c ∨ ('0' ≤ c ∧ c ≤ '9') ∨ c = '_' := fun {c} => by
    rw [Bool.or_eq_true, Char.isAlphanum, Bool.or_eq_true, isAlpha_iff, isDigit_iff,
      decide_eq_true_eq, or_assoc]
    rfl
  rw [isName, NameShape]
  cases name.toList with
  | nil => exact iff_of_false nofun (by rintro ⟨_, _, h, -⟩; cases h)
  | cons first rest =>
      rw [Bool.and_eq_true, isAlpha_iff, List.all_eq_true]
      constructor
      · rintro ⟨hfirst, hrest⟩
        exact ⟨first, rest, rfl, hfirst, fun c hc => hletter.mp (hrest c hc)⟩
      · rintro ⟨_, _, ⟨rfl, rfl⟩, hfirst, hrest⟩
        exact ⟨hfirst, fun c hc => hletter.mpr (hrest c hc)⟩

/-! ### Calls -/

/-- A computation on a table. What it has changed stays changed when it fails. -/
abbrev Acting := ExceptT QueryError (StateM Registry)

/-- What can be asked of a table: to register a converter, its own or one that is shared, to find
one, and what names there are. -/
inductive Call
  | register (name : String) (c : Converter)
  | find (name : String)
  | contains (name : String)
  | names
  | size

/-- The answer of a table. -/
inductive Reply
  | done
  | converter (c : Converter)
  | known (b : Bool)
  | names (ns : List String)
  | size (n : Nat)

/-- What a call does. -/
def Call.act : Call → Acting Reply
  | .register name c => do
    if !isName name then throw (.invalidConverter name nameRule)
    let key := fold name
    if (← getThe Registry).entries.contains key then throw (.converterAlreadyRegistered name)
    modifyThe Registry fun r => ⟨r.entries.insert key (name, c)⟩
    return .done
  | .find name => do
    match (← getThe Registry).get name with
    | .ok c => return .converter c
    | .error fault => throw fault
  | .contains name => return .known ((← getThe Registry).contains name)
  | .names => return .names (← getThe Registry).names
  | .size => return .size (← getThe Registry).size

/-- A call on a table, with the table that it leaves. -/
def perform (call : Call) (r : Registry) : Except QueryError Reply × Registry :=
  call.act.run.run r

/-- The table after several calls, one after another, whatever comes of each. -/
def after (r : Registry) : List Call → Registry
  | [] => r
  | call :: calls => (perform call r).2.after calls

/-- The name that a call with some result registers. -/
def Call.registers : Call → Except QueryError Reply → List String
  | .register name _, .ok _ => [name]
  | _, _ => []

/-- The names that are registered by several calls, one after another. -/
def accepted (r : Registry) : List Call → List String
  | [] => []
  | call :: calls => call.registers (perform call r).1 ++ (perform call r).2.accepted calls

variable {r r' : Registry} {name : String} {c : Converter} {call : Call}

/-- A converter is registered in place as it is in a copy. One that is refused leaves the table. -/
lemma perform_register (r : Registry) (name : String) (c : Converter) :
    perform (.register name c) r =
      match r.register name c with
      | .ok r' => (.ok .done, r')
      | .error fault => (.error fault, r) := by
  rw [perform, Call.act, register]
  cases isName name with
  | false => rfl
  | true =>
      -- behind the test for the shape nothing is read but whether the key is taken
      show ((if r.contains name then throw (.converterAlreadyRegistered name)
          else do
            modifyThe Registry fun r => ⟨r.entries.insert (fold name) (name, c)⟩
            return .done : Acting Reply).run.run r) = _
      cases r.contains name with
      | true => rfl
      | false => rfl

/-- A converter is registered just when its name has the shape of one and is not taken; it is put
behind the others. -/
lemma register_eq_ok_iff : r.register name c = .ok r' ↔
    NameShape name ∧ r.contains name = false
      ∧ r' = ⟨r.entries.insert (fold name) (name, c)⟩ := by
  rw [register, ← isName_iff]
  cases isName name with
  | false => simp
  | true =>
      cases r.contains name with
      | true => simp
      | false => simp [eq_comm]

/-- A registration that is done is that of a copy. -/
lemma perform_register_fst_iff : (perform (.register name c) r).1 = .ok .done ↔
    ∃ r', r.register name c = .ok r' ∧ perform (.register name c) r = (.ok .done, r') := by
  rw [perform_register]
  cases r.register name c with
  | ok r' => exact iff_of_true rfl ⟨r', rfl, rfl⟩
  | error fault => exact iff_of_false nofun (by rintro ⟨_, h, -⟩; cases h)

/-- What has not the shape of a name is refused, and the table stays. -/
lemma perform_register_of_not_nameShape (h : ¬ NameShape name) :
    perform (.register name c) r = (.error (.invalidConverter name nameRule), r) := by
  have hname : isName name = false := Bool.eq_false_iff.mpr (mt isName_iff.mp h)
  rw [perform_register, register, hname]
  rfl

/-- A taken name is refused, and the table stays. -/
lemma perform_register_of_contains (hname : NameShape name) (htaken : r.contains name = true) :
    perform (.register name c) r = (.error (.converterAlreadyRegistered name), r) := by
  rw [perform_register, register, isName_iff.mpr hname, htaken]
  rfl

/-- A converter is found as in a copy, and the table stays. -/
lemma perform_find (r : Registry) (q : String) :
    perform (.find q) r = ((r.get q).map .converter, r) := by
  show (match r.get q with
    | .ok c => return .converter c
    | .error fault => throw fault : Acting Reply).run.run r = _
  cases r.get q <;> rfl

/-- A found converter is that of the name. -/
lemma perform_find_fst_iff {q : String} :
    (perform (.find q) r).1 = .ok (.converter c) ↔ r.get q = .ok c := by
  rw [perform_find]
  cases r.get q with
  | ok c' => simp [Except.map]
  | error fault => exact iff_of_false nofun nofun

/-- A call registers one name, or leaves the table. -/
lemma perform_cases (call : Call) (r : Registry) :
    (∃ name c r', call = .register name c ∧ r.register name c = .ok r'
        ∧ perform call r = (.ok .done, r'))
      ∨ (perform call r).2 = r ∧ call.registers (perform call r).1 = [] := by
  cases call with
  | register name c =>
      rw [perform_register]
      cases h : r.register name c with
      | ok r' => exact .inl ⟨name, c, r', rfl, h, rfl⟩
      | error fault => exact .inr ⟨rfl, rfl⟩
  | find q => exact .inr ⟨by rw [perform_find], rfl⟩
  | contains | names | size => exact .inr ⟨rfl, rfl⟩

/-! ### Tables -/

/-- The tables that there are: the empty one, the built-in one, and what registrations make of
them. -/
inductive Made : Registry → Prop
  | empty : Made .empty
  | builtin : Made .builtin
  | register {r r' : Registry} {name : String} {c : Converter} :
      Made r → r.register name c = .ok r' → Made r'

/-- The key of an entry is the folded name that stands in it, and the names differ beyond their
case. -/
structure Keyed (r : Registry) : Prop where
  keys : r.entries.keys = r.names.map fold
  distinct : (r.names.map fold).Nodup

/-- A taken name folds like one of the names. -/
lemma Keyed.contains_iff (h : r.Keyed) {q : String} :
    r.contains q = true ↔ ∃ m ∈ r.names, fold m = fold q := by
  simp [contains, h.keys]

/-- A converter is registered just when its name has the shape of one and folds like none of the
names. -/
lemma Keyed.perform_register_fst_iff (h : r.Keyed) : (perform (.register name c) r).1 = .ok .done ↔
    NameShape name ∧ ∀ m ∈ r.names, fold m ≠ fold name := by
  have hfree : r.contains name = false ↔ ∀ m ∈ r.names, fold m ≠ fold name := by
    rw [Bool.eq_false_iff, Ne, h.contains_iff]
    push Not
    rfl
  rw [Registry.perform_register_fst_iff, ← hfree]
  constructor
  · rintro ⟨r', hregister, -⟩
    obtain ⟨hname, hnew, -⟩ := register_eq_ok_iff.mp hregister
    exact ⟨hname, hnew⟩
  · rintro ⟨hname, hnew⟩
    have hregister := (register_eq_ok_iff (c := c)).mpr ⟨hname, hnew, rfl⟩
    exact ⟨_, hregister, by rw [perform_register, hregister]⟩

/-- A name that is no entry's key is not found. -/
lemma Keyed.get_of_forall_ne (h : r.Keyed) {q : String} (hq : ∀ m ∈ r.names, fold m ≠ fold q) :
    r.get q = .error (.unknownConverter q) := by
  have hkey : fold q ∉ r.entries.keys := by
    rw [h.keys, List.mem_map]
    rintro ⟨m, hm, heq⟩
    exact hq m hm heq
  rw [get, OrderedMap.get?_eq_none hkey]

section Register

variable (h : r.register name c = .ok r')
include h

/-- A registered name was no key. -/
lemma not_mem_keys_of_register : fold name ∉ r.entries.keys := by
  obtain ⟨-, hnew, -⟩ := register_eq_ok_iff.mp h
  intro hmem
  rw [contains, OrderedMap.contains_iff.mpr hmem] at hnew
  cases hnew

/-- A registered name goes behind the others. -/
lemma names_of_register : r'.names = r.names ++ [name] := by
  obtain ⟨-, -, rfl⟩ := register_eq_ok_iff.mp h
  rw [names, OrderedMap.toList_insert (not_mem_keys_of_register h), List.map_append, names]
  rfl

/-- A registered name leads to its converter. -/
lemma get_of_register {q : String} (hq : fold q = fold name) : r'.get q = .ok c := by
  obtain ⟨-, -, rfl⟩ := register_eq_ok_iff.mp h
  rw [get, OrderedMap.get?_insert, if_pos hq]

/-- What is found in a table is found there after a registration. -/
lemma get_of_register_of_get {q : String} {c' : Converter} (hq : r.get q = .ok c') :
    r'.get q = .ok c' := by
  -- the registered name was no key, so what is found stands under another one
  have hne : fold q ≠ fold name := by
    intro heq
    rw [get, heq, OrderedMap.get?_eq_none (not_mem_keys_of_register h)] at hq
    cases hq
  obtain ⟨-, -, rfl⟩ := register_eq_ok_iff.mp h
  rw [get, OrderedMap.get?_insert, if_neg hne]
  exact hq

/-- A registration keeps the keys in step with the names. -/
lemma Keyed.of_register (hr : r.Keyed) : r'.Keyed := by
  have hkey := not_mem_keys_of_register h
  obtain ⟨-, -, hr'⟩ := register_eq_ok_iff.mp h
  constructor
  · rw [names_of_register h, hr', OrderedMap.keys_insert hkey, hr.keys, List.map_append]
    rfl
  · rw [hr.keys] at hkey
    rw [names_of_register h, List.map_append, List.map_singleton]
    exact hr.distinct.append (List.nodup_singleton _)
      (List.disjoint_singleton.mpr hkey)

end Register

/-- Of every table the keys are in step with the names. -/
lemma Made.keyed (h : r.Made) : r.Keyed := by
  induction h with
  | empty => exact ⟨rfl, List.nodup_nil⟩
  | builtin => exact ⟨by decide, by decide⟩
  | register _ hregister ih => exact ih.of_register hregister

/-- What is found in the built-in table is one of the built-in converters, under its name. -/
lemma exists_of_get_builtin {q : String} (h : builtin.get q = .ok c) :
    ∃ p ∈ builtinConverters, fold q = fold p.1 ∧ p.2 = c := by
  have hentries : builtin.entries.toList = builtinConverters.map fun p => (fold p.1, p) := rfl
  have hkeys : builtin.entries.keys.Nodup := by
    rw [Made.builtin.keyed.keys]
    exact Made.builtin.keyed.distinct
  rw [get] at h
  split at h
  · rename_i hfound
    obtain rfl := Except.ok.inj h
    rw [OrderedMap.get?_eq_some_iff hkeys, hentries, List.mem_map] at hfound
    obtain ⟨p, hp, heq⟩ := hfound
    rw [Prod.mk.injEq] at heq
    exact ⟨p, hp, heq.1.symm, congrArg Prod.snd heq.2⟩
  · cases h

/-! ### Calls one after another -/

/-- What registrations preserve holds after any calls. -/
lemma after_induction {P : Registry → Prop}
    (hregister : ∀ {r r' : Registry} {name : String} {c : Converter},
      r.register name c = .ok r' → P r → P r')
    (h : P r) (calls : List Call) : P (r.after calls) := by
  induction calls generalizing r with
  | nil => exact h
  | cons call calls ih =>
      rw [after]
      refine ih ?_
      rcases perform_cases call r with ⟨_, _, r', _, hstep, hperform⟩ | ⟨hsame, -⟩
      · rw [hperform]
        exact hregister hstep h
      · rwa [hsame]

/-- Whatever is called, the keys stay in step with the names. -/
lemma Keyed.after (h : r.Keyed) (calls : List Call) : (r.after calls).Keyed :=
  after_induction Keyed.of_register h calls

/-- **What is found in a table is found there ever after**, whatever is called. -/
theorem get_after {q : String} {c : Converter} (h : r.get q = .ok c) (calls : List Call) :
    (r.after calls).get q = .ok c :=
  after_induction (P := fun r => r.get q = .ok c)
    (fun hregister hq => get_of_register_of_get hregister hq) h calls

/-- **The names of a table are those that it had at first and those that were registered since**, in
the order in which they came. -/
theorem names_after (r : Registry) (calls : List Call) :
    (r.after calls).names = r.names ++ r.accepted calls := by
  induction calls generalizing r with
  | nil => exact (List.append_nil _).symm
  | cons call calls ih =>
      have hstep : (perform call r).2.names
          = r.names ++ call.registers (perform call r).1 := by
        rcases perform_cases call r with ⟨name, c, r', rfl, hregister, hperform⟩ | ⟨hsame, hnone⟩
        · rw [hperform]
          exact names_of_register hregister
        · rw [hsame, hnone, List.append_nil]
      rw [after, ih, hstep, accepted, List.append_assoc]

/-- **Names are registered once, and what is found under them stays.** After any calls on any table,
a converter is registered just when its name has the shape of one and no name accepted before folds
alike; else it is refused, for its shape first, and the table stays as it is. A registered name
leads to its converter ever after, in any case and whatever is called, and so does every name that
leads to one; a name that no accepted one folds like is not found. The names are those that were
accepted, in their own spelling and order, none of them like another one, and the size is their
number. -/
theorem write_once {start : Registry} (h : start.Made) (calls : List Call) :
    let r := start.after calls
    let taken := start.names ++ start.accepted calls
    (∀ name c,
        ((perform (.register name c) r).1 = .ok .done
            ↔ NameShape name ∧ ∀ m ∈ taken, fold m ≠ fold name)
          ∧ (¬ NameShape name →
            perform (.register name c) r = (.error (.invalidConverter name nameRule), r))
          ∧ (NameShape name → (∃ m ∈ taken, fold m = fold name) →
            perform (.register name c) r = (.error (.converterAlreadyRegistered name), r))
          ∧ ((perform (.register name c) r).1 = .ok .done → ∀ later q, fold q = fold name →
            (perform (.find q) ((perform (.register name c) r).2.after later)).1
              = .ok (.converter c)))
      ∧ (∀ q c, (perform (.find q) r).1 = .ok (.converter c) → ∀ later,
        (perform (.find q) (r.after later)).1 = .ok (.converter c))
      ∧ (∀ q, (∀ m ∈ taken, fold m ≠ fold q) →
        (perform (.find q) r).1 = .error (.unknownConverter q))
      ∧ (∀ q, (perform (.contains q) r).1 = .ok (.known (decide (∃ m ∈ taken, fold m = fold q))))
      ∧ (perform .names r).1 = .ok (.names taken) ∧ (taken.map fold).Nodup
      ∧ (perform .size r).1 = .ok (.size taken.length) := by
  intro r taken
  have hkeyed : r.Keyed := h.keyed.after calls
  have hnames : r.names = taken := names_after start calls
  rw [← hnames]
  refine ⟨fun name c => ⟨hkeyed.perform_register_fst_iff, perform_register_of_not_nameShape,
    fun hname htaken => perform_register_of_contains hname (hkeyed.contains_iff.mpr htaken),
    fun hdone later q hq => ?_⟩, fun q c hfound later => ?_, fun q hq => ?_, fun q => ?_, rfl,
    hkeyed.distinct, ?_⟩
  · obtain ⟨r', hregister, hperform⟩ := perform_register_fst_iff.mp hdone
    rw [hperform]
    exact perform_find_fst_iff.mpr (get_after (get_of_register hregister hq) later)
  · exact perform_find_fst_iff.mpr (get_after (perform_find_fst_iff.mp hfound) later)
  · rw [perform_find, hkeyed.get_of_forall_ne hq]
    rfl
  · show Except.ok (Reply.known (r.contains q)) = _
    rw [Bool.eq_iff_iff.mpr (hkeyed.contains_iff.trans decide_eq_true_iff.symm)]
  · rw [names, List.length_map]
    rfl

/-- In the built-in table a new name is taken for good, in any case. -/
theorem write_once_builtin :
    let calls := [.register "Account_Sid" .sid]
    let later := [.register "account_SID" .guid, .register "dash-name" .guid]
    builtin.Made
      ∧ (perform (.register "account_SID" .guid) (builtin.after calls)).1
        = .error (.converterAlreadyRegistered "account_SID")
      ∧ (perform (.find "ACCOUNT_SID") ((perform (.register "Account_Sid" .sid) builtin).2.after
        later)).1 = .ok (.converter .sid) := by
  have hshape : ∀ {name}, isName name = true → NameShape name := isName_iff.mp
  refine ⟨.builtin, ?_, ?_⟩
  · obtain ⟨-, -, hrefused, -⟩ :=
      (write_once .builtin [.register "Account_Sid" .sid]).1 "account_SID" .guid
    rw [hrefused (hshape (by decide)) ⟨"Account_Sid", by decide, by decide⟩]
  · obtain ⟨haccepted, -, -, hstays⟩ := (write_once .builtin []).1 "Account_Sid" .sid
    exact hstays (haccepted.mpr ⟨hshape (by decide), by decide⟩) _ "ACCOUNT_SID" (by decide)

end Registry

end DirectoryLens
