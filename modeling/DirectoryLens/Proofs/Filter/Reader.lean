/-
Reading filter text, by the grammar of LDAP search filters.

* `Filter.unescape?`: the octets that a piece of a value denotes;
* `Filter.readPieces`, `readItem`: a value up to the parenthesis that closes it, split at its
  wildcards, and an assertion on an attribute;
* `Filter.readFilter`, `readFilters`: one filter, and several of them, at the head of a text;
* `Filter.read`: the filter that a whole text is;
* `Filter.Proper`: a filter whose names are names, whose composites have children and whose
  negations have one;
* `readFilter_chars`: a proper filter is read off its text, whatever stands behind it.

The reader knows nothing of how filters are written: a character that may not stand for itself
and an empty list of filters end the reading.
-/
import Mathlib.Tactic
import DirectoryLens.Filter.Basic

namespace DirectoryLens.Filter

/-! ### Values -/

/-- The characters that stand for themselves nowhere in a value. -/
def reserved : List Char :=
  ['\x00', '(', ')', '*', '\\']

/-- The octets that a piece of a value denotes: a backslash and two hexadecimal digits are one
octet, any other character is its UTF-8 form. -/
def unescape? : List Char → Option Octets
  | [] => some []
  | '\\' :: high :: low :: rest => do
    let b ← Octets.ofHexPair? high low
    let bs ← unescape? rest
    return b :: bs
  | c :: rest => do
    if c ∈ reserved then none
    let bs ← unescape? rest
    return String.utf8EncodeChar c ++ bs

/-- The pieces of the value at the head of a text, up to the parenthesis that closes it, and what
stands behind that. -/
def readPieces (s : List Char) : Option (List Octets × List Char) :=
  match s.dropWhile (· ≠ ')') with
  | _ :: rest => do
    let pieces ← ((s.takeWhile (· ≠ ')')).splitOn '*').mapM unescape?
    return (pieces, rest)
  | [] => none

/-! ### Assertions -/

/-- A character that the name of an attribute may go on with. -/
def isNameChar (c : Char) : Bool :=
  c.isAlphanum || c = '-' || c = '.' || c = ';' || c = '_'

/-- A character that the identifier of a rule may hold. -/
def isRuleChar (c : Char) : Bool :=
  c.isAlphanum || c = '-' || c = '.'

/-- The comparator at the head of a text. -/
def readComparator : List Char → Option (Comparator × List Char)
  | '=' :: s => some (.equal, s)
  | '~' :: '=' :: s => some (.approx, s)
  | '<' :: '=' :: s => some (.lessOrEqual, s)
  | '>' :: '=' :: s => some (.greaterOrEqual, s)
  | _ => none

/-- The extensible match of an attribute whose rule is at the head of a text. Its value has no
wildcards. -/
def readRule (name : String) (s : List Char) : Option (Filter × List Char) :=
  match RuleId.ofText? (String.ofList (s.takeWhile isRuleChar)), s.dropWhile isRuleChar with
  | some rule, ':' :: '=' :: s =>
    match readPieces s with
    | some ([value], s) => some (.extensible name rule value, s)
    | _ => none
  | _, _ => none

/-- The assertion whose attribute is at the head of a text. -/
def readItem (s : List Char) : Option (Filter × List Char) :=
  let name := s.takeWhile isNameChar
  if isAttributeName name then
    match s.dropWhile isNameChar with
    | ':' :: s => readRule (String.ofList name) s
    | s => do
      let (comparator, s) ← readComparator s
      let (pieces, s) ← readPieces s
      return (.item (String.ofList name) comparator pieces, s)
  else none

/-! ### Filters -/

/-- The composite that a character opens. -/
def readSymbol : Char → Option Symbol
  | '&' => some .all
  | '|' => some .any
  | '!' => some .no
  | _ => none

mutual

/-- The filter at the head of a text, in so many steps at most. A negation has one child. -/
def readFilter : Nat → List Char → Option (Filter × List Char)
  | steps + 1, '(' :: c :: s =>
    match readSymbol c with
    | some symbol => do
      let (fs, s) ← readFilters steps s
      match s with
      | ')' :: s => if symbol = .no ∧ fs.length ≠ 1 then none else some (.composite symbol fs, s)
      | _ => none
    | none => readItem (c :: s)
  | _, _ => none

/-- The filters at the head of a text, one at least. -/
def readFilters : Nat → List Char → Option (List Filter × List Char)
  | steps + 1, s => do
    let (f, s) ← readFilter steps s
    match s with
    | '(' :: _ => do
      let (fs, s) ← readFilters steps s
      return (f :: fs, s)
    | _ => return ([f], s)
  | 0, _ => none

end

/-- The filter that a text is, nothing being left over. -/
def read (s : String) : Option Filter :=
  match readFilter s.toList.length s.toList with
  | some (f, []) => some f
  | _ => none

/-- A filter that the grammar has a text for: names are names, values have pieces, composites
have children and negations have one. -/
inductive Proper : Filter → Prop
  | item {name comparator pieces} :
      isAttributeName name.toList → pieces ≠ [] → Proper (.item name comparator pieces)
  | extensible {name rule value} :
      isAttributeName name.toList → Proper (.extensible name rule value)
  | composite {symbol fs} :
      fs ≠ [] → (symbol = .no → fs.length = 1) → (∀ f ∈ fs, Proper f) →
      Proper (.composite symbol fs)

/-! ### Escaped values read back -/

/-- What holds of the octets of all numbers below 256 holds of every octet. -/
lemma forall_octet {P : UInt8 → Prop} (h : ∀ n < 256, P (UInt8.ofNat n)) (b : UInt8) : P b := by
  have hb := h b.toNat b.toNat_lt
  rwa [UInt8.ofNat_toNat] at hb

/-- A plain octet stands for itself. -/
lemma utf8EncodeChar_of_isPlain (b : UInt8) : isPlain b →
    String.utf8EncodeChar (Char.ofNat b.toNat) = [b] ∧ Char.ofNat b.toNat ∉ reserved := by
  revert b
  exact forall_octet (by decide +kernel)

/-- An escaped octet is read as that octet. -/
lemma unescape?_escapeOctet_append (b : UInt8) (s : List Char) :
    unescape? (escapeOctet b ++ s) = (unescape? s).map (b :: ·) := by
  by_cases h : isPlain b
  · obtain ⟨henc, hres⟩ := utf8EncodeChar_of_isPlain b h
    have hne : Char.ofNat b.toNat ≠ '\\' := by
      intro hc
      simp [hc, reserved] at hres
    rw [escapeOctet, if_pos h, List.singleton_append, unescape?.eq_def]
    split
    · simp_all
    · simp_all
    · rename_i c rest _ heq
      obtain ⟨rfl, rfl⟩ := List.cons_eq_cons.mp heq
      rw [if_neg hres, henc]
      cases unescape? s <;> rfl
  · rw [escapeOctet, if_neg h, Octets.hexPair]
    simp only [List.cons_append, List.nil_append, unescape?, Octets.ofHexPair?_hexPair]
    cases unescape? s <;> rfl

/-- An escaped value denotes the value. -/
@[simp] lemma unescape?_escape (bs : Octets) : unescape? (escape bs) = some bs := by
  induction bs with
  | nil => rfl
  | cons b bs ih =>
      rw [escape, List.flatMap_cons, unescape?_escapeOctet_append]
      rw [escape] at ih
      rw [ih, Option.map_some]

/-- Of the reserved characters an escaped value holds the backslash alone. -/
lemma not_mem_escape {c : Char} (hc : c ∈ reserved) (hne : c ≠ '\\') (bs : Octets) :
    c ∉ escape bs := by
  have key : ∀ b : UInt8,
      (reserved.all fun c => c = '\\' || !(escapeOctet b).contains c) = true :=
    forall_octet (by decide +kernel)
  intro h
  obtain ⟨b, -, hb⟩ := List.mem_flatMap.mp h
  have hcb := List.all_eq_true.mp (key b) c hc
  simp [hne, hb] at hcb

/-- Octet strings are read off their escaped forms. -/
lemma mapM_unescape?_escape (pieces : List Octets) :
    (pieces.map escape).mapM unescape? = some pieces := by
  induction pieces with
  | nil => rfl
  | cons bs pieces ih => simp [ih]

/-- What a text begins with is cut off where a condition ends. -/
lemma takeWhile_append_cons {p : Char → Bool} {s : List Char} {c : Char} (hs : ∀ d ∈ s, p d)
    (hc : p c = false) (rest : List Char) :
    (s ++ c :: rest).takeWhile p = s ∧ (s ++ c :: rest).dropWhile p = c :: rest := by
  rw [List.takeWhile_append_of_pos hs, List.dropWhile_append_of_pos hs]
  simp [hc]

/-- Joined texts hold the characters of each, and the mark between them. -/
lemma mem_intercalate {m c : Char} {texts : List (List Char)} (h : c ∈ [m].intercalate texts) :
    c = m ∨ ∃ t ∈ texts, c ∈ t := by
  induction texts with
  | nil => simp at h
  | cons t texts ih =>
      cases texts with
      | nil => exact .inr ⟨t, by simp, by simpa using h⟩
      | cons u texts =>
          rw [List.intercalate_cons_cons, List.mem_append, List.mem_append] at h
          rcases h with (h | h) | h
          · exact .inr ⟨t, by simp, h⟩
          · exact .inl (List.mem_singleton.mp h)
          · rcases ih h with rfl | ⟨v, hv, hc⟩
            · exact .inl rfl
            · exact .inr ⟨v, List.mem_cons_of_mem t hv, hc⟩

/-- A value is read off its text, up to the parenthesis that closes it. -/
lemma readPieces_joinPieces {pieces : List Octets} (h : pieces ≠ []) (rest : List Char) :
    readPieces (joinPieces (pieces.map escape) ++ ')' :: rest) = some (pieces, rest) := by
  have hclose : ∀ c ∈ joinPieces (pieces.map escape), decide (c ≠ ')') = true := by
    intro c hc
    rw [decide_eq_true_eq]
    rintro rfl
    rcases mem_intercalate hc with hstar | ⟨t, ht, hmem⟩
    · simp at hstar
    · obtain ⟨bs, -, rfl⟩ := List.mem_map.mp ht
      exact not_mem_escape (by decide) (by decide) bs hmem
  obtain ⟨htake, hdrop⟩ := takeWhile_append_cons (c := ')') hclose (by decide) rest
  have hstar : ∀ t ∈ pieces.map escape, '*' ∉ t := by
    intro t ht
    obtain ⟨bs, -, rfl⟩ := List.mem_map.mp ht
    exact not_mem_escape (by decide) (by decide) bs
  rw [readPieces, hdrop, htake, joinPieces,
    List.splitOn_intercalate '*' hstar (by simpa using h), mapM_unescape?_escape]
  rfl

/-! ### Names and rules read back -/

/-- The characters of a name are those that a name goes on with. -/
lemma isNameChar_of_isAttributeName {s : List Char} (h : isAttributeName s) :
    ∀ c ∈ s, isNameChar c := by
  cases s with
  | nil => simp [isAttributeName] at h
  | cons c rest =>
      simp only [isAttributeName, Bool.and_eq_true, List.all_eq_true] at h
      intro d hd
      rcases List.mem_cons.mp hd with rfl | hd
      · simp [isNameChar, h.1]
      · exact h.2 d hd

/-- A number without leading zeros consists of digits. -/
lemma isDigit_of_isArc {s : List Char} (h : isArc s) : ∀ c ∈ s, c.isDigit := by
  simp only [isArc, Bool.or_eq_true, decide_eq_true_eq, Bool.and_eq_true, List.all_eq_true] at h
  rcases h with rfl | ⟨⟨-, hdigits⟩, -⟩
  · simp
  · exact hdigits

/-- The characters of an object identifier are digits and points. -/
lemma isRuleChar_of_isObjectId {s : List Char} (h : isObjectId s) : ∀ c ∈ s, isRuleChar c := by
  intro d hd
  have hjoin : ['.'].intercalate (s.splitOn '.') = s := List.intercalate_splitOn '.'
  rw [← hjoin] at hd
  rw [isObjectId] at h
  split at h
  · rename_i c arc arcs hsplit
    simp only [Bool.and_eq_true, List.all_eq_true, decide_eq_true_eq] at h
    obtain ⟨⟨hlow, hhigh⟩, harcs⟩ := h
    rw [hsplit] at hd
    rcases mem_intercalate hd with rfl | ⟨t, ht, hdt⟩
    · decide
    · have hdigit : d.isDigit := by
        rcases List.mem_cons.mp ht with rfl | ht
        · rw [List.mem_singleton.mp hdt]
          exact Char.isDigit_iff_toNat.mpr ⟨UInt32.le_iff_toNat_le.mp hlow,
            (UInt32.le_iff_toNat_le.mp hhigh).trans (by decide)⟩
        · exact isDigit_of_isArc (harcs t ht) d hdt
      simp [isRuleChar, Char.isAlphanum, hdigit]
  · simp at h

/-- The characters of a descriptor are letters, digits and hyphens. -/
lemma isRuleChar_of_isDescriptor {s : List Char} (h : isDescriptor s) :
    ∀ c ∈ s, isRuleChar c := by
  cases s with
  | nil => simp [isDescriptor] at h
  | cons c rest =>
      simp only [isDescriptor, Bool.and_eq_true, List.all_eq_true] at h
      intro d hd
      rcases List.mem_cons.mp hd with rfl | hd
      · simp [isRuleChar, Char.isAlphanum, h.1]
      · have := h.2 d hd
        simp only [Bool.or_eq_true, decide_eq_true_eq] at this
        rcases this with h | h <;> simp [isRuleChar, h]

/-- The identifier of a rule holds no character but those of the token it is read as. -/
lemma isRuleChar_of_mem (rule : RuleId) : ∀ c ∈ rule.text.toList, isRuleChar c := by
  rcases Bool.or_eq_true_iff.mp rule.valid with h | h
  · exact isRuleChar_of_isObjectId h
  · exact isRuleChar_of_isDescriptor h

/-- An identifier is that of its text. -/
@[simp] lemma ofText?_text (rule : RuleId) : RuleId.ofText? rule.text = some rule := by
  rw [RuleId.ofText?, dif_pos rule.valid]

/-! ### Assertions read back -/

/-- The mark of a comparator is read as the comparator, and begins with no character that a name
goes on with. -/
lemma readComparator_symbol (comparator : Comparator) (s : List Char) :
    readComparator (comparator.symbol.toList ++ s) = some (comparator, s)
      ∧ ∃ c t, comparator.symbol.toList = c :: t ∧ isNameChar c = false ∧ c ≠ ':' := by
  cases comparator
  · exact ⟨rfl, '=', [], rfl, by decide, by decide⟩
  · exact ⟨rfl, '~', ['='], rfl, by decide, by decide⟩
  · exact ⟨rfl, '<', ['='], rfl, by decide, by decide⟩
  · exact ⟨rfl, '>', ['='], rfl, by decide, by decide⟩

/-- An assertion is read off its text. -/
lemma readItem_item {name : String} (hname : isAttributeName name.toList)
    (comparator : Comparator) {pieces : List Octets} (h : pieces ≠ []) (rest : List Char) :
    readItem (name.toList ++ (comparator.symbol.toList
      ++ (joinPieces (pieces.map escape) ++ ')' :: rest)))
      = some (.item name comparator pieces, rest) := by
  obtain ⟨hread, c, t, hsymbol, hc, hcolon⟩ :=
    readComparator_symbol comparator (joinPieces (pieces.map escape) ++ ')' :: rest)
  rw [hsymbol, List.cons_append] at hread ⊢
  obtain ⟨htake, hdrop⟩ := takeWhile_append_cons (isNameChar_of_isAttributeName hname) hc
    (t ++ (joinPieces (pieces.map escape) ++ ')' :: rest))
  rw [readItem, htake, hdrop, if_pos hname]
  split
  · rename_i heq
    exact absurd (List.cons_eq_cons.mp heq).1 hcolon
  · rw [hread]
    simp only [Option.bind_eq_bind, Option.bind_some, readPieces_joinPieces h rest,
      String.ofList_toList, Option.pure_def]

/-- An extensible match is read off its text. -/
lemma readItem_extensible {name : String} (hname : isAttributeName name.toList) (rule : RuleId)
    (value : Octets) (rest : List Char) :
    readItem (name.toList ++ ':' :: (rule.text.toList ++ ':' :: '=' :: (escape value
      ++ ')' :: rest))) = some (.extensible name rule value, rest) := by
  obtain ⟨htake, hdrop⟩ := takeWhile_append_cons (isNameChar_of_isAttributeName hname)
    (c := ':') (by decide) (rule.text.toList ++ ':' :: '=' :: (escape value ++ ')' :: rest))
  obtain ⟨hrule, hvalue⟩ := takeWhile_append_cons (isRuleChar_of_mem rule)
    (c := ':') (by decide) ('=' :: (escape value ++ ')' :: rest))
  have hread := readPieces_joinPieces (List.cons_ne_nil value []) rest
  rw [List.map_singleton, joinPieces, List.intercalate_singleton] at hread
  rw [readItem, htake, hdrop, if_pos hname]
  simp only [readRule, hrule, hvalue, String.ofList_toList, ofText?_text, hread]

/-! ### Filters read back -/

/-- The mark of a composite is one character, which opens that composite. -/
lemma readSymbol_text (symbol : Symbol) :
    ∃ c, symbol.text.toList = [c] ∧ readSymbol c = some symbol := by
  cases symbol
  · exact ⟨'&', rfl, rfl⟩
  · exact ⟨'|', rfl, rfl⟩
  · exact ⟨'!', rfl, rfl⟩

/-- No composite is opened by what a name begins with. -/
lemma readSymbol_of_isAttributeName {s : List Char} (h : isAttributeName s) :
    ∃ c t, s = c :: t ∧ readSymbol c = none := by
  cases s with
  | nil => simp [isAttributeName] at h
  | cons c t =>
      refine ⟨c, t, rfl, ?_⟩
      have hc : c.isAlphanum := by
        simp only [isAttributeName, Bool.and_eq_true] at h
        exact h.1
      rw [readSymbol.eq_def]
      split
      · simp at hc
      · simp at hc
      · simp at hc
      · rfl

/-- The text of a filter begins with a parenthesis. -/
lemma chars_eq_cons (f : Filter) : ∃ s, f.chars = '(' :: s := by
  cases f <;> exact ⟨_, by rw [chars]; rfl⟩

/-- Filters that are read off their texts one by one are read off these texts together, up to the
parenthesis that closes them. -/
lemma readFilters_charsAll {fs : List Filter} (hne : fs ≠ [])
    (hread : ∀ f ∈ fs, ∀ steps rest, f.chars.length ≤ steps →
      readFilter steps (f.chars ++ rest) = some (f, rest)) :
    ∀ steps rest, (charsAll fs).length < steps →
      readFilters steps (charsAll fs ++ ')' :: rest) = some (fs, ')' :: rest) := by
  induction fs with
  | nil => exact absurd rfl hne
  | cons f fs ih =>
      intro steps rest hsteps
      obtain ⟨steps, rfl⟩ := Nat.exists_eq_add_one_of_ne_zero (Nat.ne_zero_of_lt hsteps)
      rw [charsAll, List.length_append] at hsteps
      have hf := hread f (by simp) steps (charsAll fs ++ ')' :: rest) (by omega)
      rw [charsAll, List.append_assoc, readFilters, hf]
      cases fs with
      | nil => simp [charsAll]
      | cons g gs =>
          have hlen : 0 < f.chars.length := by
            obtain ⟨s, hs⟩ := chars_eq_cons f
            simp [hs]
          have hrest := ih (by simp) (fun g hg => hread g (List.mem_cons_of_mem f hg)) steps rest
            (by omega)
          obtain ⟨s, hs⟩ := chars_eq_cons g
          rw [charsAll, hs, List.append_assoc, List.cons_append] at hrest ⊢
          simp [hrest]

/-- **A proper filter is read off its text**, whatever stands behind it, in as many steps as the
text has characters. -/
theorem readFilter_chars {f : Filter} (h : f.Proper) : ∀ steps rest, f.chars.length ≤ steps →
    readFilter steps (f.chars ++ rest) = some (f, rest) := by
  induction h with
  | @item name comparator pieces hname hpieces =>
      intro steps rest hsteps
      obtain ⟨c, t, hct, hsymbol⟩ := readSymbol_of_isAttributeName hname
      have hitem := readItem_item hname comparator hpieces rest
      simp only [chars, List.cons_append, List.append_assoc, List.length_cons] at hsteps ⊢
      obtain ⟨steps, rfl⟩ := Nat.exists_eq_add_one_of_ne_zero (Nat.ne_zero_of_lt hsteps)
      rw [hct, List.cons_append] at hitem ⊢
      simp only [readFilter, hsymbol, List.nil_append, hitem]
  | @extensible name rule value hname =>
      intro steps rest hsteps
      obtain ⟨c, t, hct, hsymbol⟩ := readSymbol_of_isAttributeName hname
      have hitem := readItem_extensible hname rule value rest
      simp only [chars, List.cons_append, List.append_assoc, List.length_cons] at hsteps ⊢
      obtain ⟨steps, rfl⟩ := Nat.exists_eq_add_one_of_ne_zero (Nat.ne_zero_of_lt hsteps)
      rw [hct, List.cons_append] at hitem ⊢
      simp only [readFilter, hsymbol, List.nil_append, hitem]
  | @composite symbol fs hne hone _ ih =>
      intro steps rest hsteps
      obtain ⟨c, hc, hsymbol⟩ := readSymbol_text symbol
      simp only [chars, hc, List.cons_append, List.append_assoc, List.nil_append,
        List.length_cons, List.length_append] at hsteps ⊢
      obtain ⟨steps, rfl⟩ := Nat.exists_eq_add_one_of_ne_zero (Nat.ne_zero_of_lt hsteps)
      have hfs := readFilters_charsAll hne ih steps rest (by omega)
      simp only [readFilter, hsymbol, hfs, Option.bind_eq_bind, Option.bind_some]
      rw [if_neg fun hno => hno.2 (hone hno.1)]

/-- A proper filter is read off the whole of its text. -/
theorem read_render {f : Filter} (h : f.Proper) : read f.render = some f := by
  have hread := readFilter_chars h f.chars.length [] le_rfl
  rw [List.append_nil] at hread
  rw [read, render, String.toList_ofList, hread]

end DirectoryLens.Filter
