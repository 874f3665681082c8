/-
JSON values that are written and read again.

* `Json.readString_quoted`: a string is read off its text, up to the quote that closes it;
* `Json.Proper`: the values that have a text;
* `Json.chars`: the text of a value, character by character;
* `Json.Opens`: the texts that values start with;
* `Json.readItems_joined`, `Json.readMembers_joined`: items and members are read off their texts
  when each of them is;
* `Json.Proper.reads`, `Json.ofText?_write`: a value is read off its text.
-/
import DirectoryLens.Proofs.Json.Lexeme

namespace DirectoryLens.Json

open Number Text

/-! ### Strings -/

/-- A character that stands for itself is read as it stands. -/
lemma readPieces_cons {c : Char} (hquote : c ≠ '"') (hslash : c ≠ '\\') (hc : 0x20 ≤ c.toNat)
    (done : List Piece) (rest : List Char) :
    readPieces done (c :: rest) = readPieces (.char c :: done) rest := by
  rw [readPieces, if_neg (by simp [hslash, hc])]
  all_goals simp [hquote, hslash]

/-- A control character is read off its four digits. -/
lemma readPieces_control {c : Char} (hc : c.toNat < 0x20) (done : List Piece)
    (rest : List Char) :
    readPieces done ('\\' :: 'u' :: '0' :: '0' :: Octets.hexPair (UInt8.ofNat c.toNat) ++ rest)
      = readPieces (.char c :: done) rest := by
  have hoctet : (UInt8.ofNat c.toNat).toNat = c.toNat :=
    UInt8.toNat_ofNat_of_lt' (hc.trans (by decide))
  have hpiece : pieceOfUnit c.toNat = .char c := by
    rw [pieceOfUnit, if_neg (by simp; omega), if_neg (by simp; omega), Char.ofNat_toNat]
  have hunit : readUnit '0' '0' (Octets.hexDigit ((UInt8.ofNat c.toNat).toNat / 16))
      (Octets.hexDigit ((UInt8.ofNat c.toNat).toNat % 16)) = some c.toNat := by
    rw [readUnit, Octets.ofHexPair?_hexPair]
    show some (256 * 0 + (UInt8.ofNat c.toNat).toNat) = some c.toNat
    rw [hoctet, Nat.mul_zero, Nat.zero_add]
  simp only [Octets.hexPair, List.cons_append, List.nil_append, readPieces, hunit,
    Option.bind_eq_bind, Option.bind_some, hpiece]

/-- What is escaped is read as one character. -/
lemma readPieces_escapedChar (c : Char) (done : List Piece) (rest : List Char) :
    readPieces done (escapedChar c ++ rest) = readPieces (.char c :: done) rest := by
  rw [escapedChar]
  split_ifs with hquote hslash hplain hb hf hn hr ht
  · subst hquote
    rfl
  · subst hslash
    rfl
  · exact readPieces_cons hquote hslash hplain done rest
  · subst hb
    rfl
  · subst hf
    rfl
  · subst hn
    rfl
  · subst hr
    rfl
  · subst ht
    rfl
  · exact readPieces_control (Nat.not_le.mp hplain) done rest

/-- An escaped text is read as its characters, the latest first. -/
lemma readPieces_flatMap (cs : List Char) (done : List Piece) (rest : List Char) :
    readPieces done (cs.flatMap escapedChar ++ '"' :: rest)
      = some ((cs.map .char).reverse ++ done, rest) := by
  induction cs generalizing done with
  | nil => rfl
  | cons c cs ih =>
      rw [List.flatMap_cons, List.append_assoc, readPieces_escapedChar, ih, List.map_cons,
        List.reverse_cons, List.append_assoc]
      rfl

/-- Characters make up the text of them. -/
lemma textOfPieces_map (cs : List Char) : textOfPieces (cs.map .char) = some cs := by
  induction cs with
  | nil => rfl
  | cons c cs ih => rw [List.map_cons, textOfPieces, ih, Option.map_some]

/-- **A string is read off its text**, up to the quote that closes it. -/
theorem readString_quoted (s : String) (rest : List Char) :
    readString (s.toList.flatMap escapedChar ++ '"' :: rest) = some (some s, rest) := by
  rw [readString, readPieces_flatMap]
  simp [textOfPieces_map]

/-! ### Values and their texts -/

/-- A value that has a text: its numbers are numbers, and its strings and names are texts. -/
inductive Proper : Json → Prop
  | null : Proper .null
  | bool {b : Bool} : Proper (.bool b)
  | number {lexeme : String} (h : IsLexeme lexeme.toList) : Proper (.number lexeme)
  | string {text : String} : Proper (.string (some text))
  | array {items : List Json} (h : ∀ j ∈ items, Proper j) : Proper (.array items)
  | object {members : List (Option String × Json)} (hnames : ∀ m ∈ members, m.1.isSome = true)
      (h : ∀ m ∈ members, Proper m.2) : Proper (.object members)

/-- The characters of a value's text. -/
def chars (j : Json) : List Char :=
  j.write.toList

/-- The characters of a name and its value. -/
def memberChars (m : Option String × Json) : List Char :=
  '"' :: (m.1.getD "").toList.flatMap escapedChar ++ '"' :: ':' :: m.2.chars

/-- Texts with commas between them. -/
def joined (texts : List (List Char)) : List Char :=
  [','].intercalate texts

/-- One text is itself. -/
@[simp] lemma joined_singleton (text : List Char) : joined [text] = text :=
  List.intercalate_singleton

/-- A text stands before the others, with a comma between them. -/
@[simp] lemma joined_cons_cons (text text' : List Char) (texts : List (List Char)) :
    joined (text :: text' :: texts) = text ++ ',' :: joined (text' :: texts) := by
  rw [joined, List.intercalate_cons_cons, List.append_assoc]
  rfl

/-- The text of a string is its characters between quotes. -/
@[simp] lemma toList_quoted (s : String) :
    (quoted s).toList = '"' :: s.toList.flatMap escapedChar ++ ['"'] :=
  String.toList_ofList

/-- Items are written one by one. -/
@[simp] lemma writeItems_eq_map (items : List Json) : writeItems items = items.map write := by
  induction items with
  | nil => simp [writeItems]
  | cons j items ih => simp [writeItems, ih]

/-- Members are written one by one. -/
lemma toList_writeMembers (members : List (Option String × Json)) :
    (writeMembers members).map String.toList = members.map memberChars := by
  induction members with
  | nil => rw [writeMembers, List.map_nil, List.map_nil]
  | cons m members ih =>
      obtain ⟨name, j⟩ := m
      simp [writeMembers, memberChars, chars, ih]

/-- The text of an array is that of its items between brackets. -/
@[simp] lemma chars_array (items : List Json) :
    (Json.array items).chars = '[' :: joined (items.map chars) ++ [']'] := by
  have hitems : (writeItems items).map String.toList = items.map chars := by
    simp [chars]
  rw [chars, write, String.toList_append, String.toList_append, String.toList_intercalate, hitems]
  rfl

/-- The text of an object is that of its members between braces. -/
@[simp] lemma chars_object (members : List (Option String × Json)) :
    (Json.object members).chars = '\x7b' :: joined (members.map memberChars) ++ ['\x7d'] := by
  rw [chars, write, String.toList_append, String.toList_append, String.toList_intercalate,
    toList_writeMembers]
  rfl

/-! ### How texts start -/

/-- A text starts with a character that is neither a gap nor closes an array or an object. -/
def Opens (s : List Char) : Prop :=
  ∃ c t, s = c :: t ∧ isGap c = false ∧ c ≠ ']' ∧ c ≠ '\x7d'

variable {s : List Char} {j : Json}

/-- What stands behind a text does not change how it starts. -/
lemma Opens.append (h : Opens s) (rest : List Char) : Opens (s ++ rest) := by
  obtain ⟨c, t, rfl, hc⟩ := h
  exact ⟨c, t ++ rest, rfl, hc⟩

/-- No gap stands before it. -/
lemma Opens.skipGap_eq (h : Opens s) : skipGap s = s := by
  obtain ⟨c, t, rfl, hc, -⟩ := h
  exact dropWhile_eq_self fun d hd => by
    obtain rfl := Option.some.inj hd
    exact hc

/-- Texts with commas between them start as the first one does. -/
lemma Opens.joined (h : Opens s) (texts : List (List Char)) : Opens (joined (s :: texts)) := by
  cases texts with
  | nil => rwa [joined_singleton]
  | cons text texts =>
      rw [joined_cons_cons]
      exact h.append _

/-- A number starts with a digit or a sign. -/
lemma IsLexeme.exists_eq_cons (h : IsLexeme s) :
    ∃ c t, s = c :: t ∧ (c.isDigit = true ∨ c = '-') := by
  cases h with
  | natural h =>
      obtain ⟨c, t, heq, hc⟩ := h.exists_eq_cons
      exact ⟨c, t, heq, .inl hc⟩
  | negative => exact ⟨'-', _, rfl, .inr rfl⟩

/-- What is neither a digit nor a sign starts no number. -/
lemma ne_of_isDigit_or {c d : Char} (hc : c.isDigit = true ∨ c = '-')
    (hd : (d.isDigit || d = '-') = false) : c ≠ d := by
  rintro rfl
  rcases hc with hc | rfl
  · rw [hc] at hd
    cases hd
  · cases hd

/-- A value starts with no gap and closes nothing. -/
lemma Proper.opens (h : j.Proper) : Opens j.chars := by
  cases h with
  | null => exact ⟨'n', _, rfl, by decide⟩
  | @bool b =>
      cases b with
      | false => exact ⟨'f', _, rfl, by decide⟩
      | true => exact ⟨'t', _, rfl, by decide⟩
  | number h =>
      obtain ⟨c, t, heq, hc⟩ := h.exists_eq_cons
      have hne : ∀ {d : Char}, (d.isDigit || d = '-') = false → c ≠ d := ne_of_isDigit_or hc
      refine ⟨c, t, heq, ?_, hne rfl, hne rfl⟩
      simp [isGap, hne (d := ' ') rfl, hne (d := '\n') rfl, hne (d := '\t') rfl,
        hne (d := '\r') rfl]
  | string => exact ⟨'"', _, toList_quoted _, by decide⟩
  | array => exact ⟨'[', _, chars_array _, by decide⟩
  | object => exact ⟨'\x7b', _, chars_object _, by decide⟩

/-- A member starts with its name. -/
lemma opens_memberChars (m : Option String × Json) : Opens (memberChars m) :=
  ⟨'"', _, rfl, by decide⟩

/-! ### Reading -/

/-- What stands behind an item is no part of a number. -/
lemma ends_cons {c : Char} (h : c = ',' ∨ c = ']' ∨ c = '\x7d') (rest : List Char) :
    Ends (c :: rest) := by
  rintro d ⟨⟩
  rcases h with rfl | rfl | rfl <;> decide

/-- A value that starts as a number does is read as one. -/
lemma readValue_number {c : Char} (hc : c.isDigit = true ∨ c = '-') (steps : Nat)
    (s : List Char) :
    readValue (steps + 1) (c :: s) = (readLexeme (c :: s)).map fun r => (.number r.1, r.2) := by
  have hne : ∀ {d : Char}, (d.isDigit || d = '-') = false → c ≠ d := ne_of_isDigit_or hc
  rw [readValue]
  all_goals
    intro t heq
    exact absurd (List.cons.inj heq).1 (hne rfl)

/-- A value is read off its text in so many steps as it has characters. -/
def Reads (j : Json) : Prop :=
  ∀ steps rest, Ends rest → j.chars.length ≤ steps →
    readValue steps (j.chars ++ rest) = some (j, rest)

/-- The last item is read off its text when it is read. -/
lemma readItems_last {steps : Nat} {rest : List Char}
    (hvalue : readValue steps (j.chars ++ ']' :: rest) = some (j, ']' :: rest)) :
    readItems (steps + 1) (j.chars ++ ']' :: rest) = some ([j], rest) := by
  rw [readItems, hvalue]
  rfl

/-- An item is read off its text when it is read, and the others behind the comma are. -/
lemma readItems_cons {items : List Json} {steps : Nat} {rest : List Char} (hs : Opens s)
    (hvalue : readValue steps (j.chars ++ ',' :: s) = some (j, ',' :: s))
    (hitems : readItems steps s = some (items, rest)) :
    readItems (steps + 1) (j.chars ++ ',' :: s) = some (j :: items, rest) := by
  rw [readItems, hvalue]
  show (readItems steps (skipGap s)).bind _ = _
  rw [hs.skipGap_eq, hitems]
  rfl

/-- Items are read off their texts when each of them is. -/
lemma readItems_joined {items : List Json} (hne : items ≠ [])
    (hopens : ∀ j ∈ items, Opens j.chars) (hreads : ∀ j ∈ items, j.Reads) :
    ∀ steps rest, (joined (items.map chars)).length < steps →
      readItems steps (joined (items.map chars) ++ ']' :: rest) = some (items, rest) := by
  induction items with
  | nil => exact absurd rfl hne
  | cons j items ih =>
      intro steps rest hsteps
      obtain ⟨steps, rfl⟩ := Nat.exists_eq_add_one_of_ne_zero (Nat.ne_zero_of_lt hsteps)
      rw [List.forall_mem_cons] at hopens hreads
      cases items with
      | nil =>
          rw [List.map_singleton, joined_singleton] at hsteps ⊢
          exact readItems_last
            (hreads.1 steps (']' :: rest) (ends_cons (by decide) rest) (by omega))
      | cons k items =>
          rw [List.map_cons, List.map_cons, joined_cons_cons, ← List.map_cons] at hsteps ⊢
          rw [List.length_append, List.length_cons] at hsteps
          have htail : Opens (joined ((k :: items).map chars)) :=
            (hopens.2 k List.mem_cons_self).joined _
          have hrest := ih (List.cons_ne_nil k items) hopens.2 hreads.2 steps rest (by omega)
          rw [List.append_assoc, List.cons_append]
          exact readItems_cons (htail.append _)
            (hreads.1 steps _ (ends_cons (by decide) _) (by omega)) hrest

/-- The text of a member with something behind it. -/
lemma memberChars_append (name : String) (j : Json) (rest : List Char) :
    memberChars (some name, j) ++ rest
      = '"' :: (name.toList.flatMap escapedChar ++ '"' :: ':' :: (j.chars ++ rest)) := by
  rw [memberChars, List.cons_append, List.cons_append, List.append_assoc]
  rfl

/-- The last member is read off its text when its value is. -/
lemma readMembers_last {steps : Nat} {rest : List Char} (name : String) (hopens : Opens j.chars)
    (hvalue : readValue steps (j.chars ++ '\x7d' :: rest) = some (j, '\x7d' :: rest)) :
    readMembers (steps + 1) (memberChars (some name, j) ++ '\x7d' :: rest)
      = some ([(some name, j)], rest) := by
  have hgap := (hopens.append ('\x7d' :: rest)).skipGap_eq
  rw [memberChars_append, readMembers, readString_quoted]
  show (readValue steps (skipGap (j.chars ++ '\x7d' :: rest))).bind _ = _
  rw [hgap, hvalue]
  rfl

/-- A member is read off its text when its value is, and the others behind the comma are read. -/
lemma readMembers_cons {members : List (Option String × Json)} {steps : Nat} {rest : List Char}
    (name : String) (hopens : Opens j.chars) (hs : Opens s)
    (hvalue : readValue steps (j.chars ++ ',' :: s) = some (j, ',' :: s))
    (hmembers : readMembers steps s = some (members, rest)) :
    readMembers (steps + 1) (memberChars (some name, j) ++ ',' :: s)
      = some ((some name, j) :: members, rest) := by
  have hgap := (hopens.append (',' :: s)).skipGap_eq
  rw [memberChars_append, readMembers, readString_quoted]
  show (readValue steps (skipGap (j.chars ++ ',' :: s))).bind _ = _
  rw [hgap, hvalue]
  show (readMembers steps (skipGap s)).bind _ = _
  rw [hs.skipGap_eq, hmembers]
  rfl

/-- A member is longer than its value. -/
lemma length_lt_memberChars (name? : Option String) (j : Json) :
    j.chars.length < (memberChars (name?, j)).length := by
  rw [memberChars, List.length_append, List.length_cons, List.length_cons, List.length_cons]
  show j.chars.length < _ + 1 + (j.chars.length + 1 + 1)
  omega

/-- Members are read off their texts when the value of each of them is. -/
lemma readMembers_joined {members : List (Option String × Json)} (hne : members ≠ [])
    (hnames : ∀ m ∈ members, m.1.isSome = true) (hopens : ∀ m ∈ members, Opens m.2.chars)
    (hreads : ∀ m ∈ members, m.2.Reads) :
    ∀ steps rest, (joined (members.map memberChars)).length < steps →
      readMembers steps (joined (members.map memberChars) ++ '\x7d' :: rest)
        = some (members, rest) := by
  induction members with
  | nil => exact absurd rfl hne
  | cons m members ih =>
      intro steps rest hsteps
      obtain ⟨steps, rfl⟩ := Nat.exists_eq_add_one_of_ne_zero (Nat.ne_zero_of_lt hsteps)
      obtain ⟨name?, j⟩ := m
      rw [List.forall_mem_cons] at hnames hopens hreads
      obtain ⟨name, rfl⟩ := Option.isSome_iff_exists.mp hnames.1
      have hlength := length_lt_memberChars (some name) j
      have hread : j.Reads := hreads.1
      cases members with
      | nil =>
          rw [List.map_singleton, joined_singleton] at hsteps ⊢
          exact readMembers_last name hopens.1
            (hread steps ('\x7d' :: rest) (ends_cons (by decide) rest) (by omega))
      | cons k members =>
          rw [List.map_cons, List.map_cons, joined_cons_cons, ← List.map_cons] at hsteps ⊢
          rw [List.length_append, List.length_cons] at hsteps
          have htail : Opens (joined ((k :: members).map memberChars)) :=
            (opens_memberChars k).joined _
          have hrest := ih (List.cons_ne_nil k members) hnames.2 hopens.2 hreads.2 steps rest
            (by omega)
          rw [List.append_assoc, List.cons_append]
          exact readMembers_cons name hopens.1 (htail.append _)
            (hread steps _ (ends_cons (by decide) _) (by omega)) hrest

/-- A value takes one step at least. -/
lemma Reads.of_add_one (hopens : Opens j.chars)
    (h : ∀ steps rest, Ends rest → j.chars.length ≤ steps + 1 →
      readValue (steps + 1) (j.chars ++ rest) = some (j, rest)) : j.Reads := by
  intro steps rest hrest hsteps
  cases steps with
  | zero =>
      obtain ⟨c, t, heq, -⟩ := hopens
      rw [heq] at hsteps
      cases hsteps
  | succ steps => exact h steps rest hrest hsteps

/-- An array is read off its text when its items are. -/
lemma readValue_array {items : List Json} {steps : Nat} {rest : List Char} (hs : Opens s)
    (hitems : readItems steps s = some (items, rest)) :
    readValue (steps + 1) ('[' :: s) = some (.array items, rest) := by
  have hgap := hs.skipGap_eq
  obtain ⟨c, t, rfl, -, hclose, -⟩ := hs
  rw [readValue]
  split
  · rename_i heq
    rw [hgap] at heq
    exact absurd (List.cons.inj heq).1 hclose
  · rw [hgap, hitems]
    rfl

/-- An object is read off its text when its members are. -/
lemma readValue_object {members : List (Option String × Json)} {steps : Nat} {rest : List Char}
    (hs : Opens s) (hmembers : readMembers steps s = some (members, rest)) :
    readValue (steps + 1) ('\x7b' :: s) = some (.object members, rest) := by
  have hgap := hs.skipGap_eq
  obtain ⟨c, t, rfl, -, -, hclose⟩ := hs
  rw [readValue]
  split
  · rename_i heq
    rw [hgap] at heq
    exact absurd (List.cons.inj heq).1 hclose
  · rw [hgap, hmembers]
    rfl

/-- **A value is read off its text**, whatever stands behind it that goes on with no number. -/
theorem Proper.reads (h : j.Proper) : j.Reads := by
  induction h with
  | null => exact .of_add_one Proper.null.opens fun _ _ _ _ => rfl
  | @bool b => exact .of_add_one Proper.bool.opens fun _ _ _ _ => by cases b <;> rfl
  | @number lexeme h =>
      refine .of_add_one (Proper.number h).opens fun steps rest hrest _ => ?_
      have hread := readLexeme_append h hrest
      obtain ⟨c, t, heq, hc⟩ := h.exists_eq_cons
      rw [String.ofList_toList] at hread
      rw [chars, write]
      rw [heq, List.cons_append] at hread ⊢
      rw [readValue_number hc, hread]
      rfl
  | @string text =>
      refine .of_add_one Proper.string.opens fun steps rest _ _ => ?_
      rw [chars, write, Option.getD_some, toList_quoted, List.append_assoc, List.cons_append,
        readValue, List.singleton_append, readString_quoted]
      rfl
  | @array items hitems ih =>
      refine .of_add_one (Proper.array hitems).opens fun steps rest _ hsteps => ?_
      rw [chars_array] at hsteps ⊢
      cases items with
      | nil => rfl
      | cons k items =>
          have hopens := (hitems k List.mem_cons_self).opens.joined (items.map chars)
          rw [List.length_append, List.length_cons, List.length_singleton] at hsteps
          have hread := readItems_joined (List.cons_ne_nil k items)
            (fun j hj => (hitems j hj).opens) ih steps rest (by omega)
          rw [List.append_assoc, List.cons_append]
          exact readValue_array (hopens.append (']' :: rest)) hread
  | @object members hnames hmembers ih =>
      refine .of_add_one (Proper.object hnames hmembers).opens fun steps rest _ hsteps => ?_
      rw [chars_object] at hsteps ⊢
      cases members with
      | nil => rfl
      | cons m members =>
          have hopens := (opens_memberChars m).joined (members.map memberChars)
          rw [List.length_append, List.length_cons, List.length_singleton] at hsteps
          have hread := readMembers_joined (List.cons_ne_nil m members) hnames
            (fun k hk => (hmembers k hk).opens) ih steps rest (by omega)
          rw [List.append_assoc, List.cons_append]
          exact readValue_object (hopens.append ('\x7d' :: rest)) hread

/-- A value is read off the whole of its text. -/
theorem ofText?_write (h : j.Proper) : ofText? j.write = some j := by
  have hread := h.reads (2 * j.chars.length + 2) [] nofun (by omega)
  rw [List.append_nil] at hread
  have hgap : skipGap j.chars = j.chars := h.opens.skipGap_eq
  rw [chars] at hread hgap
  rw [ofText?]
  simp only [hgap, hread, Option.bind_eq_bind, Option.bind_some]
  rfl

end DirectoryLens.Json
