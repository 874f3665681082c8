/-
The texts of globally unique identifiers.

* `ungroup?_eq_some_iff`: what is cut out of groups is what was put into them;
* `Guid.Canonical`: a text of five groups of lower-case hexadecimal digits;
* `canonical_iff`: such a text is the text of an identifier;
* `Guid.spellings`, `ofChars?_eq_some_iff`: the texts that denote an identifier, by its canonical
  one;
* `ofText?_text`: the canonical text denotes its identifier;
* `mixedOrder`, `ofMixed?_eq_some_iff`: the octets that a directory stores, and their order;
* `ofText?_eq_none_of_length_lt`: a text of fewer than thirty-two characters denotes none, whatever
  blanks are around it.
-/
import Mathlib.Tactic
import DirectoryLens.Identifier.Guid
import DirectoryLens.Proofs.Hexadecimal
import DirectoryLens.Proofs.Text.Blank

namespace DirectoryLens.Guid

open Text

variable {s ds : List Char} {g : Guid} {n : Nat} {ns : List Nat}

/-! ### Groups -/

/-- Digits in groups are the first group, a hyphen, and the others in groups. -/
lemma grouped_cons (n m : Nat) (ns : List Nat) (ds : List Char) :
    grouped (n :: m :: ns) ds = ds.take n ++ '-' :: grouped (m :: ns) (ds.drop n) :=
  rfl

/-- A single group is the whole text. -/
lemma ungroup?_singleton : ungroup? [n] s = some ds ↔ s = ds ∧ ds.length = n := by
  rw [ungroup?.eq_def]
  dsimp only
  split_ifs with hshort
  · refine iff_of_false nofun ?_
    rintro ⟨rfl, rfl⟩
    exact lt_irrefl _ hshort
  · split
    · rename_i hrest
      have hlength := List.drop_eq_nil_iff.mp hrest
      rw [List.take_of_length_le hlength, Option.some_inj]
      constructor
      · rintro rfl
        exact ⟨rfl, by omega⟩
      · exact And.left
    · rename_i hne _
      cases hne
    · rename_i hlong _
      refine iff_of_false nofun ?_
      rintro ⟨rfl, rfl⟩
      exact hlong rfl List.drop_length

/-- Of several groups the first stands before a hyphen, and the others behind it. -/
lemma ungroup?_cons_cons {m : Nat} : ungroup? (n :: m :: ns) s = some ds ↔
    ∃ first rest es, s = first ++ '-' :: rest ∧ first.length = n
      ∧ ungroup? (m :: ns) rest = some es ∧ first ++ es = ds := by
  rw [ungroup?.eq_def]
  dsimp only
  split_ifs with hshort
  · refine iff_of_false nofun ?_
    rintro ⟨first, rest, es, rfl, rfl, -⟩
    rw [List.length_append] at hshort
    omega
  · split
    · rename_i hne _
      cases hne
    · rename_i rest hne hrest
      cases hne
      rw [Option.map_eq_some_iff]
      constructor
      · rintro ⟨es, hes, rfl⟩
        exact ⟨s.take n, rest, es, by rw [← hrest, List.take_append_drop],
          List.length_take_of_le (Nat.not_lt.mp hshort), hes, rfl⟩
      · rintro ⟨first, rest', es, rfl, rfl, hes, rfl⟩
        rw [List.drop_left, List.cons_inj_right] at hrest
        exact ⟨es, hrest ▸ hes, by rw [List.take_left]⟩
    · rename_i hother
      refine iff_of_false nofun ?_
      rintro ⟨first, rest, es, rfl, rfl, -⟩
      exact hother m ns rest rfl List.drop_left

/-- **What is cut out of groups is what was put into them.** -/
theorem ungroup?_eq_some_iff : ungroup? (n :: ns) s = some ds ↔
    grouped (n :: ns) ds = s ∧ ds.length = (n :: ns).sum := by
  induction ns generalizing n s ds with
  | nil =>
      rw [ungroup?_singleton, List.sum_singleton, eq_comm]
      rfl
  | cons m ns ih =>
      rw [ungroup?_cons_cons, grouped_cons, List.sum_cons]
      simp only [ih]
      constructor
      · rintro ⟨first, rest, es, rfl, rfl, ⟨rfl, hes⟩, rfl⟩
        rw [List.take_left, List.drop_left, List.length_append, hes]
        exact ⟨rfl, rfl⟩
      · rintro ⟨rfl, hlength⟩
        refine ⟨ds.take n, _, ds.drop n, rfl, List.length_take_of_le (by omega), ⟨rfl, ?_⟩,
          List.take_append_drop n ds⟩
        rw [List.length_drop, hlength]
        omega

/-- A text in groups has their characters, and a hyphen before each group but the first. -/
lemma length_grouped (h : ds.length = (n :: ns).sum) :
    (grouped (n :: ns) ds).length = n + (ns.map (· + 1)).sum := by
  induction ns generalizing n ds with
  | nil => rwa [List.sum_singleton] at h
  | cons m ns ih =>
      rw [List.sum_cons] at h
      rw [grouped_cons, List.length_append, List.length_take_of_le (by omega), List.length_cons,
        ih (by rw [List.length_drop, h]; omega), List.map_cons, List.sum_cons]
      omega

/-- Digits in groups have the lower case of the digits, in groups. -/
lemma map_toLower_grouped (ns : List Nat) (ds : List Char) :
    (grouped ns ds).map Char.toLower = grouped ns (ds.map Char.toLower) := by
  induction ns generalizing ds with
  | nil => rfl
  | cons n ns ih =>
      cases ns with
      | nil => rfl
      | cons m ns =>
          rw [grouped_cons, grouped_cons, List.map_append, List.map_cons, ih, List.map_take,
            List.map_drop]
          rfl

/-- Without the hyphens, digits in groups are the digits. -/
lemma filter_grouped (ns : List Nat) (ds : List Char) :
    (grouped ns ds).filter (· ≠ '-') = ds.filter (· ≠ '-') := by
  induction ns generalizing ds with
  | nil => rfl
  | cons n ns ih =>
      cases ns with
      | nil => rfl
      | cons m ns =>
          rw [grouped_cons, List.filter_append, List.filter_cons_of_neg (by decide), ih,
            ← List.filter_append, List.take_append_drop]

/-- A text whose lower case is in groups is in groups itself. -/
lemma exists_grouped_of_map_toLower (h : s.map Char.toLower = grouped (n :: ns) ds)
    (hlength : ds.length = (n :: ns).sum) :
    ∃ es, es.map Char.toLower = ds ∧ grouped (n :: ns) es = s := by
  induction ns generalizing n s ds with
  | nil => exact ⟨s, h, rfl⟩
  | cons m ns ih =>
      rw [List.sum_cons] at hlength
      have hdrop : (ds.drop n).length = (m :: ns).sum := by
        rw [List.length_drop, hlength]
        omega
      rw [grouped_cons, List.map_eq_append_iff] at h
      obtain ⟨first, behind, rfl, hfirst, hbehind⟩ := h
      obtain ⟨c, rest, rfl, hc, hrest⟩ := List.map_eq_cons_iff.mp hbehind
      obtain rfl := (toLower_eq_iff (by decide)).mp hc
      obtain ⟨es, hes, rfl⟩ := ih hrest hdrop
      have hn : first.length = n := by
        rw [← List.length_map (f := Char.toLower), hfirst, List.length_take_of_le (by omega)]
      refine ⟨first ++ es, ?_, ?_⟩
      · rw [List.map_append, hfirst, hes, List.take_append_drop]
      · rw [grouped_cons, ← hn, List.take_left, List.drop_left]

/-! ### Canonical texts -/

/-- Five groups of lower-case hexadecimal digits, eight, four, four, four and twelve of them, with
hyphens between the groups. -/
def Canonical (s : String) : Prop :=
  (s.toList.splitOn '-').map List.length = [8, 4, 4, 4, 12]
    ∧ ∀ part ∈ s.toList.splitOn '-', ∀ c ∈ part, Octets.IsHexDigit c

instance : DecidablePred Canonical := fun _ => inferInstanceAs (Decidable (_ ∧ _))

/-- The digits of an identifier are thirty-two. -/
lemma length_hexChars (g : Guid) : (Octets.hexChars g.octets).length = groups.sum := by
  simp [g.length_eq, groups]

/-- Digits can be cut into groups of all lengths that add up to their number. -/
lemma exists_parts (h : ds.length = ns.sum) :
    ∃ parts : List (List Char), parts.map List.length = ns ∧ parts.flatten = ds := by
  induction ns generalizing ds with
  | nil => exact ⟨[], rfl, (List.length_eq_zero_iff.mp h).symm⟩
  | cons n ns ih =>
      rw [List.sum_cons] at h
      have hdrop : (ds.drop n).length = ns.sum := by
        rw [List.length_drop, h]
        omega
      obtain ⟨parts, hlengths, hflatten⟩ := ih hdrop
      refine ⟨ds.take n :: parts, ?_, ?_⟩
      · rw [List.map_cons, hlengths, List.length_take_of_le (by omega)]
      · rw [List.flatten_cons, hflatten, List.take_append_drop]

/-- Groups with hyphens between them are their digits in groups. -/
lemma intercalate_eq_grouped {parts : List (List Char)} (h : parts.map List.length = n :: ns) :
    ['-'].intercalate parts = grouped (n :: ns) parts.flatten := by
  induction ns generalizing n parts with
  | nil =>
      obtain ⟨part, rfl, -⟩ := List.map_eq_singleton_iff.mp h
      simp [grouped]
  | cons m ns ih =>
      obtain ⟨part, rest, rfl, rfl, hrest⟩ := List.map_eq_cons_iff.mp h
      cases rest with
      | nil => cases hrest
      | cons part' rest =>
          rw [List.intercalate_cons_cons, ih hrest, grouped_cons, List.flatten_cons (l := part),
            List.take_left, List.drop_left, List.append_assoc]
          rfl

/-- **The canonical texts are the texts of identifiers.** -/
theorem canonical_iff {s : String} : Canonical s ↔ ∃ g : Guid, g.text = s := by
  constructor
  · rintro ⟨hlengths, hdigits⟩
    have hlength : (s.toList.splitOn '-').flatten.length = 32 := by
      rw [List.length_flatten, hlengths]
      rfl
    obtain ⟨bs, hbs⟩ := Octets.exists_hexChars_iff.mpr
      ⟨by rw [hlength]; decide, List.forall_mem_flatten.mpr hdigits⟩
    have hsize : bs.length = 16 := by
      have := Octets.length_hexChars bs
      rw [hbs, hlength] at this
      omega
    refine ⟨⟨bs, hsize⟩, String.toList_injective ?_⟩
    rw [text, String.toList_ofList, hbs, groups, ← intercalate_eq_grouped hlengths,
      List.intercalate_splitOn]
  · rintro ⟨g, rfl⟩
    obtain ⟨parts, hlengths, hflatten⟩ := exists_parts g.length_hexChars
    have hdigits : ∀ part ∈ parts, ∀ c ∈ part, Octets.IsHexDigit c := fun part hpart c hc =>
      Octets.isHexDigit_of_mem_hexChars (hflatten ▸ List.mem_flatten_of_mem hpart hc)
    have hsplit : g.text.toList.splitOn '-' = parts := by
      rw [text, String.toList_ofList, groups, ← hflatten, ← intercalate_eq_grouped hlengths,
        List.splitOn_intercalate]
      · exact fun part hpart hhyphen => absurd (hdigits part hpart '-' hhyphen) (by decide)
      · rintro rfl
        cases hlengths
    rw [Canonical, hsplit]
    exact ⟨hlengths, hdigits⟩

/-! ### Texts that denote an identifier -/

/-- What the texts that denote an identifier have for their lower case, by the identifier's
canonical text: that text without its hyphens, as it is, in braces, or behind the mark of a name. -/
def spellings (c : List Char) : List (List Char) :=
  [c.filter (· ≠ '-'), c, '\x7b' :: (c ++ ['\x7d']), "urn:uuid:".toList ++ c]

/-- Without its hyphens a canonical text is the digits. -/
lemma filter_text (g : Guid) :
    g.text.toList.filter (· ≠ '-') = Octets.hexChars g.octets := by
  rw [text, String.toList_ofList, filter_grouped, List.filter_eq_self]
  intro c hc
  rw [decide_eq_true_eq]
  rintro rfl
  exact absurd (Octets.isHexDigit_of_mem_hexChars hc) (by decide)

/-- The canonical text has thirty-six characters. -/
@[simp] lemma length_text (g : Guid) : g.text.toList.length = 36 := by
  rw [text, String.toList_ofList, groups, length_grouped g.length_hexChars]
  rfl

/-- Octets make the identifier that holds them. -/
lemma ofOctets?_eq_some_iff {bs : Octets} : ofOctets? bs = some g ↔ bs = g.octets := by
  obtain ⟨os, hos⟩ := g
  rw [ofOctets?]
  split_ifs with h
  · rw [Option.some_inj, Guid.mk.injEq]
  · refine iff_of_false not_false ?_
    rintro rfl
    exact h hos

/-- Digits make the identifier whose digits their lower case are. -/
lemma bind_ofOctets?_eq_some_iff : (Octets.ofHexChars? s).bind ofOctets? = some g ↔
    s.map Char.toLower = Octets.hexChars g.octets := by
  simp only [Option.bind_eq_some_iff, Octets.ofHexChars?_eq_some_iff, ofOctets?_eq_some_iff,
    exists_eq_right]

/-- A text with hyphens makes the identifier whose canonical text its lower case is. -/
lemma bind_ungroup?_eq_some_iff :
    ((ungroup? groups s).bind Octets.ofHexChars?).bind ofOctets? = some g ↔
      s.map Char.toLower = g.text.toList := by
  rw [Option.bind_assoc, Option.bind_eq_some_iff, text, String.toList_ofList]
  simp only [bind_ofOctets?_eq_some_iff]
  constructor
  · rintro ⟨ds, hds, hdigits⟩
    obtain ⟨rfl, -⟩ := ungroup?_eq_some_iff.mp hds
    rw [← hdigits]
    exact map_toLower_grouped groups ds
  · intro h
    obtain ⟨ds, hdigits, hds⟩ := exists_grouped_of_map_toLower h g.length_hexChars
    refine ⟨ds, ungroup?_eq_some_iff.mpr ⟨hds, ?_⟩, hdigits⟩
    rw [← List.length_map (f := Char.toLower), hdigits]
    exact g.length_hexChars

/-- A text whose lower case is in braces is in braces itself. -/
lemma map_toLower_eq_braced_iff {t : List Char} :
    s.map Char.toLower = '\x7b' :: (t ++ ['\x7d']) ↔
      ∃ inner, s = '\x7b' :: (inner ++ ['\x7d']) ∧ inner.map Char.toLower = t := by
  constructor
  · intro h
    obtain ⟨c, rest, rfl, hc, hrest⟩ := List.map_eq_cons_iff.mp h
    obtain ⟨inner, last, rfl, hinner, hlast⟩ := List.map_eq_append_iff.mp hrest
    obtain ⟨d, rfl, hd⟩ := List.map_eq_singleton_iff.mp hlast
    obtain rfl := (toLower_eq_iff (by decide)).mp hc
    obtain rfl := (toLower_eq_iff (by decide)).mp hd
    exact ⟨inner, rfl, hinner⟩
  · rintro ⟨inner, rfl, rfl⟩
    rw [List.map_cons, List.map_append]
    rfl

/-- What is taken for a text in braces. -/
lemma isBraced_iff : (s.length = 38 && s.head? = some '\x7b' && s.getLast? = some '\x7d') = true ↔
    ∃ inner, s = '\x7b' :: (inner ++ ['\x7d']) ∧ inner.length = 36 := by
  simp only [Bool.and_eq_true, decide_eq_true_eq]
  constructor
  · rintro ⟨⟨hlength, hhead⟩, hlast⟩
    obtain ⟨rest, rfl⟩ := List.head?_eq_some_iff.mp hhead
    obtain ⟨init, hinit⟩ := List.getLast?_eq_some_iff.mp hlast
    cases init with
    | nil =>
        rw [hinit] at hlength
        cases hlength
    | cons c inner =>
        rw [List.cons_append, List.cons.injEq] at hinit
        obtain ⟨-, rfl⟩ := hinit
        refine ⟨inner, rfl, ?_⟩
        rw [List.length_cons, List.length_append, List.length_singleton] at hlength
        omega
  · rintro ⟨inner, rfl, hlength⟩
    refine ⟨⟨by simp [hlength], rfl⟩, ?_⟩
    rw [← List.cons_append]
    exact List.getLast?_concat

/-- What is taken for a text behind the mark of a name. -/
lemma isNamed_iff : (s.length = 45 && eqIgnoringAsciiCase (s.take 9) nameMark) = true ↔
    ∃ mark name, s = mark ++ name ∧ mark.map Char.toLower = "urn:uuid:".toList
      ∧ name.length = 36 := by
  rw [Bool.and_eq_true, decide_eq_true_eq, eqIgnoringAsciiCase, beq_iff_eq]
  constructor
  · rintro ⟨hlength, hmark⟩
    exact ⟨s.take 9, s.drop 9, (List.take_append_drop 9 s).symm, hmark,
      by rw [List.length_drop, hlength]⟩
  · rintro ⟨mark, name, rfl, hmark, hlength⟩
    have hnine : mark.length = 9 := by
      rw [← List.length_map (f := Char.toLower), hmark]
      rfl
    rw [List.take_left' hnine, List.length_append, hnine, hlength]
    exact ⟨rfl, hmark⟩

/-- What stands in braces or behind the mark of a name, or else the text itself, has a lower case of
thirty-six characters just when the whole has it, bare, in braces or behind the mark. -/
lemma map_toLower_hyphenated_iff {t : List Char} (ht : t.length = 36) :
    (hyphenated s).map Char.toLower = t ↔ s.map Char.toLower = t
      ∨ s.map Char.toLower = '\x7b' :: (t ++ ['\x7d'])
      ∨ s.map Char.toLower = "urn:uuid:".toList ++ t := by
  have hlength : ∀ u v : List Char, u.map Char.toLower = v → u.length = v.length := by
    rintro u _ rfl
    rw [List.length_map]
  have hnamed : s.map Char.toLower = "urn:uuid:".toList ++ t ↔ ∃ mark name, s = mark ++ name
      ∧ mark.map Char.toLower = "urn:uuid:".toList ∧ name.map Char.toLower = t :=
    List.map_eq_append_iff
  rw [map_toLower_eq_braced_iff, hnamed, hyphenated]
  split_ifs with hbraces hmark
  · obtain ⟨inner, rfl, hinner⟩ := isBraced_iff.mp hbraces
    rw [List.drop_one, List.tail_cons, List.dropLast_concat]
    refine ⟨fun h => .inr (.inl ⟨inner, rfl, h⟩), ?_⟩
    rintro (h | ⟨inner', heq, h⟩ | ⟨mark, name, heq, hmark, h⟩)
    · have hwhole := hlength _ t h
      simp [hinner, ht] at hwhole
    · rw [List.cons_inj_right, List.append_left_inj] at heq
      rwa [heq]
    · have hwhole := congrArg List.length heq
      simp [hinner, hlength mark _ hmark, hlength name t h, ht] at hwhole
  · obtain ⟨mark, name, rfl, hmark, hname⟩ := isNamed_iff.mp hmark
    have hnine : mark.length = 9 := hlength mark _ hmark
    rw [List.drop_left' hnine]
    refine ⟨fun h => .inr (.inr ⟨mark, name, rfl, hmark, h⟩), ?_⟩
    rintro (h | ⟨inner, heq, h⟩ | ⟨mark', name', heq, hmark', h⟩)
    · have hwhole := hlength _ t h
      simp [hnine, hname, ht] at hwhole
    · have hwhole := congrArg List.length heq
      simp [hnine, hname, hlength inner t h, ht] at hwhole
    · have hmarks : mark.length = mark'.length := hnine.trans (hlength mark' _ hmark').symm
      rwa [(List.append_inj heq hmarks).2]
  · rw [or_iff_left]
    rintro (⟨inner, rfl, hinner⟩ | ⟨mark, name, rfl, hmark', hname⟩)
    · exact hbraces (isBraced_iff.mpr ⟨inner, rfl, (hlength inner t hinner).trans ht⟩)
    · exact hmark (isNamed_iff.mpr ⟨mark, name, rfl, hmark', (hlength name t hname).trans ht⟩)

/-- **The texts that denote an identifier are its spellings**, in either case. -/
theorem ofChars?_eq_some_iff :
    ofChars? s = some g ↔ s.map Char.toLower ∈ spellings g.text.toList := by
  rw [spellings, filter_text, List.mem_cons, List.mem_cons, List.mem_cons, List.mem_singleton,
    ← map_toLower_hyphenated_iff g.length_text, ofChars?]
  split_ifs with hplain
  · rw [bind_ofOctets?_eq_some_iff, or_iff_left]
    intro h
    have hlength := congrArg List.length h
    rw [hyphenated, if_neg (by simp [hplain]), if_neg (by simp [hplain]), List.length_map,
      hplain, length_text] at hlength
    cases hlength
  · rw [bind_ungroup?_eq_some_iff, or_iff_right]
    intro h
    refine hplain ?_
    rw [← List.length_map (f := Char.toLower), h]
    exact g.length_hexChars

/-- A text that denotes an identifier has thirty-two characters at least. -/
lemma le_length_of_ofChars? (h : ofChars? s = some g) : 32 ≤ s.length := by
  have hlengths : ∀ t ∈ spellings g.text.toList, 32 ≤ t.length := by
    rw [spellings, filter_text]
    simp [g.length_eq]
  rw [← List.length_map (f := Char.toLower)]
  exact hlengths _ (ofChars?_eq_some_iff.mp h)

/-- A text of fewer than thirty-two characters denotes no identifier. -/
lemma ofText?_eq_none_of_length_lt {t : String} (h : t.toList.length < 32) : ofText? t = none := by
  rw [ofText?, Option.eq_none_iff_forall_ne_some]
  intro g hg
  have htrim := (trim_sublist t.toList).length_le
  have hlength := le_length_of_ofChars? hg
  omega

/-- A canonical text consists of digits and hyphens. -/
lemma mem_text {c : Char} (h : c ∈ g.text.toList) : c = '-' ∨ Octets.IsHexDigit c := by
  by_cases hc : c = '-'
  · exact .inl hc
  · have hmem : c ∈ Octets.hexChars g.octets := by
      rw [← filter_text, List.mem_filter]
      exact ⟨h, decide_eq_true hc⟩
    exact .inr (Octets.isHexDigit_of_mem_hexChars hmem)

/-- A text that denotes an identifier consists, in lower case, of hexadecimal digits, hyphens,
braces and the characters of the mark of a name. -/
lemma mem_of_ofChars? {c : Char} (h : ofChars? s = some g) (hc : c ∈ s) :
    Octets.IsHexDigit c.toLower ∨ c.toLower ∈ '-' :: '\x7b' :: '\x7d' :: "urn:uuid:".toList := by
  have htext : c.toLower ∈ g.text.toList →
      Octets.IsHexDigit c.toLower ∨ c.toLower ∈ '-' :: '\x7b' :: '\x7d' :: "urn:uuid:".toList :=
    fun hmem => (mem_text hmem).symm.imp_right fun hhyphen => List.mem_cons.mpr (.inl hhyphen)
  have hspelling := ofChars?_eq_some_iff.mp h
  have hlower : c.toLower ∈ s.map Char.toLower := List.mem_map_of_mem hc
  simp only [spellings, List.mem_cons, List.not_mem_nil, or_false] at hspelling
  rcases hspelling with heq | heq | heq | heq <;> rw [heq] at hlower
  · exact htext (List.mem_filter.mp hlower).1
  · exact htext hlower
  · rcases List.mem_cons.mp hlower with hbrace | hlower
    · rw [hbrace]
      exact .inr (by decide)
    · rcases List.mem_append.mp hlower with hlower | hbrace
      · exact htext hlower
      · rw [List.mem_singleton.mp hbrace]
        exact .inr (by decide)
  · rcases List.mem_append.mp hlower with hmark | hlower
    · exact .inr (List.mem_cons_of_mem _ (List.mem_cons_of_mem _ (List.mem_cons_of_mem _ hmark)))
    · exact htext hlower

/-- What a canonical text consists of is no blank, and its own lower case. -/
lemma plain_of_mem_text {c : Char} (h : c ∈ g.text.toList) :
    isBlank c = false ∧ c.toLower = c := by
  have hdigits : ∀ n < 16, isBlank (Octets.hexDigit n) = false
      ∧ (Octets.hexDigit n).toLower = Octets.hexDigit n := by decide
  rcases mem_text h with rfl | hc
  · decide
  · obtain ⟨n, hn, rfl⟩ := Octets.isHexDigit_iff.mp hc
    exact hdigits n hn

/-- The canonical text denotes its identifier. -/
@[simp] lemma ofText?_text (g : Guid) : ofText? g.text = some g := by
  rw [ofText?, trim_eq_self fun c hc => (plain_of_mem_text hc).1, ofChars?_eq_some_iff,
    List.map_congr_left fun c hc => (plain_of_mem_text hc).2, List.map_id']
  exact List.mem_cons_of_mem _ List.mem_cons_self

/-! ### Stored octets -/

/-- Where the octets of an identifier stand among those that a directory stores. -/
def mixedOrder : List Nat :=
  [3, 2, 1, 0, 5, 4, 7, 6, 8, 9, 10, 11, 12, 13, 14, 15]

/-- Reversing the groups of sixteen octets puts them in the order of the text. -/
lemma swap_eq_mixedOrder {bs : Octets} (h : bs.length = 16) :
    swap bs = mixedOrder.filterMap (bs[·]?) := by
  match bs, h with
  | [_, _, _, _, _, _, _, _, _, _, _, _, _, _, _, _], _ => rfl

/-- Stored octets are those of one identifier. -/
lemma ofMixed?_eq_some_iff {bs : Octets} : ofMixed? bs = some g ↔ g.mixed = bs := by
  constructor
  · intro h
    have hswap : swap bs = g.octets := ofOctets?_eq_some_iff.mp h
    have hlength : bs.length = 16 := by
      rw [← length_swap, hswap]
      exact g.length_eq
    rw [mixed, ← hswap, swap_swap hlength]
  · rintro rfl
    exact ofMixed?_mixed g

/-- An identifier is stored as sixteen octets. -/
@[simp] lemma length_mixed (g : Guid) : g.mixed.length = 16 :=
  (length_swap g.octets).trans g.length_eq

end DirectoryLens.Guid
