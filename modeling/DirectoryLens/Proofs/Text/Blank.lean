/-
What trimming leaves.

* `trim_sublist`: the characters of a trimmed text stand in the text, in that order;
* `trimStart_eq_self`, `trimEnd_eq_self`, `trim_eq_self`: a text without blanks at its ends is
  trimmed already;
* `mem_trim`: only blanks are trimmed off;
* `exists_trimStart_eq`: what trimming leaves at the start of a text is the trimmed text, with
  blanks behind it;
* `trim_append_append`: blanks around a text make no difference;
* `trim_append_of_not_blank`: a text without blanks behind another stays as it is.
-/
import DirectoryLens.Proofs.Text.Run
import DirectoryLens.Text.Blank

namespace DirectoryLens.Text

variable {s t before behind : List Char}

/-- The characters of a trimmed text stand in the text, in that order. -/
lemma trim_sublist (s : List Char) : (trim s).Sublist s := by
  have hend : (trimEnd (trimStart s)).reverse.Sublist (trimStart s).reverse := by
    rw [trimEnd, List.reverse_reverse]
    exact List.dropWhile_sublist _
  exact (List.reverse_sublist.mp hend).trans (List.dropWhile_sublist _)

/-! ### Texts without blanks at their ends -/

/-- A text that starts with no blank stays as it is at its start. -/
lemma trimStart_eq_self (h : ∀ c ∈ s.head?, isBlank c = false) : trimStart s = s :=
  dropWhile_eq_self h

/-- A text that ends with no blank stays as it is at its end. -/
lemma trimEnd_eq_self (h : ∀ c ∈ s.getLast?, isBlank c = false) : trimEnd s = s := by
  have hreverse : trimStart s.reverse = s.reverse :=
    trimStart_eq_self fun c hc => h c (by rwa [List.head?_reverse] at hc)
  rw [trimEnd, ← trimStart, hreverse, List.reverse_reverse]

/-- A text without blanks is trimmed already. -/
lemma trim_eq_self (h : ∀ c ∈ s, isBlank c = false) : trim s = s := by
  rw [trim, trimStart_eq_self fun c hc => h c (List.mem_of_head? hc),
    trimEnd_eq_self fun c hc => h c (List.mem_of_getLast? hc)]

/-! ### Blanks around a text -/

/-- Nothing is left of blanks. -/
lemma trimStart_eq_nil (h : ∀ c ∈ s, isBlank c = true) : trimStart s = [] :=
  List.dropWhile_eq_nil_iff.mpr h

/-- A text is what trimming leaves at its start, with blanks before it. -/
lemma exists_blanks_append (s : List Char) :
    ∃ before, (∀ c ∈ before, isBlank c = true) ∧ s = before ++ trimStart s :=
  ⟨s.takeWhile isBlank, List.all_eq_true.mp List.all_takeWhile,
    (List.takeWhile_append_dropWhile (p := isBlank)).symm⟩

/-- What trimming leaves at the start of a text is the trimmed text, with blanks behind it. -/
lemma exists_trimStart_eq (s : List Char) :
    ∃ behind, (∀ c ∈ behind, isBlank c = true) ∧ trimStart s = trim s ++ behind := by
  obtain ⟨before, hbefore, heq⟩ := exists_blanks_append (trimStart s).reverse
  refine ⟨before.reverse, fun c hc => hbefore c (List.mem_reverse.mp hc), ?_⟩
  rw [trim, trimEnd, ← trimStart, ← List.reverse_append, ← heq, List.reverse_reverse]

/-- What is no blank is left by trimming. -/
lemma mem_trim {c : Char} (hc : isBlank c = false) (h : c ∈ s) : c ∈ trim s := by
  have hstart : ∀ {t : List Char}, c ∈ t → c ∈ trimStart t := fun {t} ht => by
    obtain ⟨before, hbefore, heq⟩ := exists_blanks_append t
    rw [heq, List.mem_append] at ht
    refine ht.resolve_left fun hblank => ?_
    rw [hbefore c hblank] at hc
    cases hc
  exact List.mem_reverse.mpr (hstart (List.mem_reverse.mpr (hstart h)))

/-- What trimming leaves at the start of two texts one behind the other. -/
lemma trimStart_append (s t : List Char) :
    trimStart (s ++ t) = if trimStart s = [] then trimStart t else trimStart s ++ t := by
  rw [trimStart, trimStart, trimStart, List.dropWhile_append]
  simp only [List.isEmpty_iff]

/-- Blanks behind a text are trimmed off. -/
lemma trimEnd_append (h : ∀ c ∈ behind, isBlank c = true) (s : List Char) :
    trimEnd (s ++ behind) = trimEnd s := by
  rw [trimEnd, trimEnd, List.reverse_append,
    List.dropWhile_append_of_pos fun c hc => h c (List.mem_reverse.mp hc)]

/-- Blanks around a text make no difference. -/
lemma trim_append_append (hbefore : ∀ c ∈ before, isBlank c = true)
    (hbehind : ∀ c ∈ behind, isBlank c = true) (s : List Char) :
    trim (before ++ s ++ behind) = trim s := by
  rw [trim, List.append_assoc, trimStart_append, if_pos (trimStart_eq_nil hbefore),
    trimStart_append]
  split_ifs with hblank
  · rw [trim, hblank, trimStart_eq_nil hbehind]
  · rw [trimEnd_append hbehind]
    rfl

/-- A text without blanks behind another stays as it is. -/
lemma trim_append_of_not_blank (h : ∀ c ∈ t, isBlank c = false) (hne : t ≠ []) (s : List Char) :
    trim (s ++ t) = trimStart s ++ t := by
  have hstart : trimStart (s ++ t) = trimStart s ++ t := by
    rw [trimStart_append]
    split_ifs with hblank
    · rw [hblank, List.nil_append, trimStart_eq_self fun c hc => h c (List.mem_of_head? hc)]
    · rfl
  rw [trim, hstart, trimEnd_eq_self]
  rw [List.getLast?_append_of_ne_nil _ hne]
  exact fun c hc => h c (List.mem_of_getLast? hc)

end DirectoryLens.Text
