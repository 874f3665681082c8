/-
Values and patterns as filter text, octet by octet.

* `escape_append`, `escapePattern_append`: octets are written one by one;
* `isPrintable_of_mem_escape`, `isPrintable_of_mem_escapePattern`: what is written is printable
  ASCII;
* `BackslashesOpen`, `backslashesOpen_flatMap`: where a backslash stands, an octet is written by its
  two digits;
* `splitOn_escapePattern`: the wildcards of a pattern cut its text as its asterisks cut its octets;
* `escape_injective`, `escapePattern_injective`: what is written says what it was written for;
* `escape_homomorphism`: all of this of both, together.
-/
import DirectoryLens.Proofs.Filter.Pattern
import DirectoryLens.Proofs.Hexadecimal

namespace DirectoryLens.Filter

open Octets

variable {c : Char} {bs : Octets}

/-! ### Octets one by one -/

/-- The text of octets behind others stands behind their text. -/
@[simp] lemma escape_append (as bs : Octets) : escape (as ++ bs) = escape as ++ escape bs :=
  List.flatMap_append

/-- The text of a pattern behind another stands behind its text. -/
@[simp] lemma escapePattern_append (as bs : Octets) :
    escapePattern (as ++ bs) = escapePattern as ++ escapePattern bs :=
  List.flatMap_append

/-- The text of a pattern holds wildcards and the text of octets. -/
lemma mem_escapePattern (h : c ∈ escapePattern bs) : c = '*' ∨ c ∈ escape bs := by
  obtain ⟨b, hb, hc⟩ := List.mem_flatMap.mp h
  split_ifs at hc
  · exact .inl (List.mem_singleton.mp hc)
  · exact .inr (List.mem_flatMap.mpr ⟨b, hb, hc⟩)

/-! ### Safe characters -/

/-- A printable ASCII character. -/
def IsPrintable (c : Char) : Prop :=
  ' ' ≤ c ∧ c ≤ '~'

/-- Values are written in printable ASCII. -/
lemma isPrintable_of_mem_escape (h : c ∈ escape bs) : IsPrintable c := by
  have hoctet : ∀ b : UInt8, ((escapeOctet b).all fun c => ' ' ≤ c && c ≤ '~') = true :=
    forall_octet (by decide +kernel)
  obtain ⟨b, -, hc⟩ := List.mem_flatMap.mp h
  simpa [IsPrintable] using List.all_eq_true.mp (hoctet b) c hc

/-- Patterns are written in printable ASCII. -/
lemma isPrintable_of_mem_escapePattern (h : c ∈ escapePattern bs) : IsPrintable c := by
  rcases mem_escapePattern h with rfl | h
  · exact ⟨by decide, by decide⟩
  · exact isPrintable_of_mem_escape h

/-! ### Backslashes -/

/-- A backslash in the text of octets opens one of them: before it stands the text of the octets
before that one, behind it two lower-case digits of the octet, and the text of the others behind
these. -/
def BackslashesOpen (text : Octets → List Char) : Prop :=
  ∀ bs before behind, text bs = before ++ '\\' :: behind →
    ∃ first b rest high low, bs = first ++ b :: rest ∧ before = text first
      ∧ behind = high :: low :: text rest ∧ IsHexDigit high ∧ IsHexDigit low
      ∧ ofHexPair? high low = some b

/-- The digits of an octet are lower-case and denote it. -/
lemma exists_hexPair_eq (b : UInt8) : ∃ high low, hexPair b = [high, low]
    ∧ IsHexDigit high ∧ IsHexDigit low ∧ ofHexPair? high low = some b := by
  have hb : b.toNat < 256 := b.toNat_lt
  exact ⟨_, _, rfl, isHexDigit_iff.mpr ⟨_, by omega, rfl⟩, isHexDigit_iff.mpr ⟨_, by omega, rfl⟩,
    ofHexPair?_hexPair b⟩

/-- Digits are no backslashes. -/
lemma not_mem_hexPair (b : UInt8) : '\\' ∉ hexPair b := by
  obtain ⟨high, low, heq, hhigh, hlow, -⟩ := exists_hexPair_eq b
  rw [heq, List.mem_cons, List.mem_singleton]
  rintro (rfl | rfl)
  · exact absurd hhigh (by decide)
  · exact absurd hlow (by decide)

/-- Octets that are written by their digits behind a backslash, or without one, are told by the
backslashes. -/
lemma backslashesOpen_flatMap {f : UInt8 → List Char}
    (hf : ∀ b, '\\' ∉ f b ∨ f b = '\\' :: hexPair b) : BackslashesOpen (List.flatMap f) := by
  intro bs
  induction bs with
  | nil =>
      intro before behind h
      exact absurd h.symm (List.append_ne_nil_of_right_ne_nil before (List.cons_ne_nil _ _))
  | cons b bs ih =>
      intro before behind h
      rw [List.flatMap_cons] at h
      rcases List.append_eq_append_iff.mp h with ⟨left, rfl, hrest⟩ | ⟨tail, hb, hrest⟩
      · -- the backslash stands behind the text of the first octet
        obtain ⟨first, b', rest, high, low, rfl, rfl, hbehind⟩ := ih left behind hrest
        exact ⟨b :: first, b', rest, high, low, rfl, rfl, hbehind⟩
      · cases tail with
        | nil =>
            obtain ⟨first, b', rest, high, low, rfl, hfirst, hbehind⟩ := ih [] behind hrest.symm
            rw [List.append_nil] at hb
            refine ⟨b :: first, b', rest, high, low, rfl, ?_, hbehind⟩
            rw [List.flatMap_cons, ← hfirst, List.append_nil, hb]
        | cons d tail =>
            obtain ⟨rfl, rfl⟩ := List.cons.inj hrest
            have hmem : '\\' ∈ f b := hb ▸ List.mem_append_right _ List.mem_cons_self
            have hdigits := (hf b).resolve_left fun hnot => hnot hmem
            obtain ⟨high, low, hpair, hhigh, hlow, hvalue⟩ := exists_hexPair_eq b
            rw [hdigits] at hb
            cases before with
            | nil =>
                obtain ⟨-, htail⟩ := List.cons.inj hb
                refine ⟨[], b, bs, high, low, rfl, rfl, ?_, hhigh, hlow, hvalue⟩
                rw [← htail, hpair]
                rfl
            | cons c before =>
                -- a second backslash would be one of the digits
                have hdigit := (List.cons.inj hb).2
                have hsecond : '\\' ∈ hexPair b :=
                  hdigit ▸ List.mem_append_right _ List.mem_cons_self
                exact absurd hsecond (not_mem_hexPair b)

/-- An octet is written without a backslash, or by its digits behind one. -/
lemma escapeOctet_cases (b : UInt8) :
    '\\' ∉ escapeOctet b ∨ escapeOctet b = '\\' :: hexPair b := by
  rw [escapeOctet]
  split_ifs with hplain
  · refine .inl fun hmem => (utf8EncodeChar_of_isPlain b hplain).2 ?_
    rw [← List.mem_singleton.mp hmem]
    decide
  · exact .inr rfl

/-- The backslashes of a value open its octets. -/
lemma backslashesOpen_escape : BackslashesOpen escape :=
  backslashesOpen_flatMap escapeOctet_cases

/-- The backslashes of a pattern open its octets. -/
lemma backslashesOpen_escapePattern : BackslashesOpen escapePattern := by
  refine backslashesOpen_flatMap fun b => ?_
  split_ifs
  · exact .inl (by decide)
  · exact escapeOctet_cases b

/-! ### Reading back -/

/-- The wildcards of a pattern cut its text as its asterisks cut its octets. -/
lemma splitOn_escapePattern (bs : Octets) :
    (escapePattern bs).splitOn '*' = (bs.splitOn 0x2A).map escape := by
  have hstar : ∀ text ∈ (piecesOfPattern bs).map escape, '*' ∉ text := by
    intro text htext
    obtain ⟨piece, -, rfl⟩ := List.mem_map.mp htext
    exact not_mem_escape (by decide) (by decide) piece
  have hne : (piecesOfPattern bs).map escape ≠ [] := by
    rw [Ne, List.map_eq_nil_iff]
    exact List.splitOn_ne_nil 0x2A bs
  rw [← joinPieces_piecesOfPattern, joinPieces, List.splitOn_intercalate '*' hstar hne]
  rfl

/-- The pieces of a pattern's text denote the pieces of the pattern. -/
lemma mapM_unescape?_splitOn (bs : Octets) :
    ((escapePattern bs).splitOn '*').mapM unescape? = some (bs.splitOn 0x2A) := by
  rw [splitOn_escapePattern, mapM_unescape?_escape]

/-- Values that are written alike are the same. -/
lemma escape_injective : Function.Injective escape := by
  intro as bs h
  simpa using congrArg unescape? h

/-- Patterns that are written alike are the same. -/
lemma escapePattern_injective : Function.Injective escapePattern := by
  intro as bs h
  have hread := congrArg (fun text => (text.splitOn '*').mapM unescape?) h
  simp only [mapM_unescape?_splitOn, Option.some_inj] at hread
  calc as = [0x2A].intercalate (as.splitOn 0x2A) := (List.intercalate_splitOn 0x2A).symm
    _ = [0x2A].intercalate (bs.splitOn 0x2A) := by rw [hread]
    _ = bs := List.intercalate_splitOn 0x2A

/-- **Escaping keeps octets apart and their texts safe.** Values and patterns are written octet by
octet, and no two of them alike. All that is written is printable ASCII, without parentheses and, in
a value, without wildcards; a backslash opens one octet and is followed by its two lower-case
digits, behind which the next octet begins. A value is read back off its text, and the text of a
pattern, cut at its wildcards, is read back as what lies between the pattern's asterisks. -/
theorem escape_homomorphism :
    (∀ as bs, escape (as ++ bs) = escape as ++ escape bs
        ∧ escapePattern (as ++ bs) = escapePattern as ++ escapePattern bs)
      ∧ Function.Injective escape ∧ Function.Injective escapePattern
      ∧ (∀ bs, (∀ c ∈ escape bs, IsPrintable c ∧ c ∉ ['(', ')', '*'])
        ∧ ∀ c ∈ escapePattern bs, IsPrintable c ∧ c ∉ ['(', ')'])
      ∧ BackslashesOpen escape ∧ BackslashesOpen escapePattern
      ∧ ∀ bs, unescape? (escape bs) = some bs
        ∧ ((escapePattern bs).splitOn '*').mapM unescape? = some (bs.splitOn 0x2A) := by
  have hvalue : ∀ bs c, c ∈ escape bs → c ∉ ['(', ')', '*'] := by
    intro bs c hc hmem
    have hreserved : ∀ d ∈ ['(', ')', '*'], d ∈ reserved ∧ d ≠ '\\' := by simp [reserved]
    obtain ⟨hres, hne⟩ := hreserved c hmem
    exact not_mem_escape hres hne bs hc
  have hpattern : ∀ bs c, c ∈ escapePattern bs → c ∉ ['(', ')'] := by
    intro bs c hc hmem
    rcases mem_escapePattern hc with rfl | hc
    · exact absurd hmem (by decide)
    · exact hvalue bs c hc (List.mem_append_left ['*'] hmem)
  exact ⟨fun as bs => ⟨escape_append as bs, escapePattern_append as bs⟩, escape_injective,
    escapePattern_injective,
    fun bs => ⟨fun c hc => ⟨isPrintable_of_mem_escape hc, hvalue bs c hc⟩,
      fun c hc => ⟨isPrintable_of_mem_escapePattern hc, hpattern bs c hc⟩⟩,
    backslashesOpen_escape, backslashesOpen_escapePattern,
    fun bs => ⟨unescape?_escape bs, mapM_unescape?_splitOn bs⟩⟩

example : escape (ofText "\\2a") = "\\5c2a".toList := by decide

end DirectoryLens.Filter
