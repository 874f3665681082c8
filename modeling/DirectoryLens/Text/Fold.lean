/-
Lower-case folding, by which names are compared.

* `lowerChar`: the lower-case form of one character, away from the sigma rule;
* `fold`: the lower-case form of a text;
* `foldAfter_eq_map_toLower`: on ASCII text, folding is the lower case of each letter.
-/
import DirectoryLens.Text.Blank
import DirectoryLens.Text.CaseTable

namespace DirectoryLens.Text

/-- The lower-case form of a character. The capital dotted I alone has two characters. -/
def lowerChar (c : Char) : List Char :=
  if c.toNat < 128 then [c.toLower]
  else if c = 'İ' then ['i', '\u0307']
  else match lowerRuns.find? (·.covers c.toNat) with
    | some r => [Char.ofNat (c.toNat + r.shift).toNat]
    | none => [c]

/-- The nearest character that is not looked through carries case. -/
def meetsCased (s : List Char) : Bool :=
  match s.dropWhile fun c => inRanges ignorableRanges c.toNat with
  | c :: _ => inRanges casedRanges c.toNat
  | [] => false

/-- The lower-case form of capital sigma: final after a cased character that none follows.
The text before it is given last character first. -/
def lowerSigma (before after : List Char) : Char :=
  if meetsCased before && !meetsCased after then 'ς' else 'σ'

/-- The lower-case form of a text that stands behind another, given last character first. -/
def foldAfter (before : List Char) : List Char → List Char
  | [] => []
  | c :: rest =>
    (if c = 'Σ' then [lowerSigma before rest] else lowerChar c) ++ foldAfter (c :: before) rest

/-- The lower-case form of a text, under which names are equal. -/
def fold (s : String) : String :=
  String.ofList (foldAfter [] s.toList)

/-- ASCII text is folded letter by letter. -/
theorem foldAfter_eq_map_toLower (before s : List Char) (h : ∀ c ∈ s, c.toNat < 128) :
    foldAfter before s = s.map Char.toLower := by
  induction s generalizing before with
  | nil => rfl
  | cons c rest ih =>
    have hc : c.toNat < 128 := h c (by simp)
    have hs : c ≠ 'Σ' := by rintro rfl; revert hc; decide
    simp [foldAfter, hs, lowerChar, hc, ih (c :: before) fun d hd => h d (by simp [hd])]

end DirectoryLens.Text
