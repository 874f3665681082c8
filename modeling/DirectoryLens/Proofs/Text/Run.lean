/-
Runs of characters at the head of a text.

* `takeWhile_eq_nil`, `dropWhile_eq_self`: a text that starts with no run;
* `takeWhile_run`, `dropWhile_run`: a run that is not continued is taken off whole;
* `exists_run_append`: every text is a run, and what does not continue it.
-/
import Mathlib.Data.List.TakeWhile
import Mathlib.Tactic

namespace DirectoryLens.Text

variable {p : Char → Bool} {run rest : List Char}

/-- Nothing is taken of a text that starts with none of the characters. -/
lemma takeWhile_eq_nil (hrest : ∀ c ∈ rest.head?, p c = false) : rest.takeWhile p = [] := by
  cases rest with
  | nil => rfl
  | cons c rest => exact List.takeWhile_cons_of_neg (Bool.eq_false_iff.mp (hrest c rfl))

/-- All is left of a text that starts with none of the characters. -/
lemma dropWhile_eq_self (hrest : ∀ c ∈ rest.head?, p c = false) : rest.dropWhile p = rest := by
  cases rest with
  | nil => rfl
  | cons c rest => exact List.dropWhile_cons_of_neg (Bool.eq_false_iff.mp (hrest c rfl))

/-- A run that is not continued is what is taken. -/
lemma takeWhile_run (hrun : ∀ c ∈ run, p c = true) (hrest : ∀ c ∈ rest.head?, p c = false) :
    (run ++ rest).takeWhile p = run := by
  rw [List.takeWhile_append_of_pos hrun, takeWhile_eq_nil hrest, List.append_nil]

/-- What does not continue a run is what is left behind it. -/
lemma dropWhile_run (hrun : ∀ c ∈ run, p c = true) (hrest : ∀ c ∈ rest.head?, p c = false) :
    (run ++ rest).dropWhile p = rest := by
  rw [List.dropWhile_append_of_pos hrun, dropWhile_eq_self hrest]

/-- A text is a run, and what does not continue it. -/
lemma exists_run_append (p : Char → Bool) (s : List Char) :
    ∃ rest, s = s.takeWhile p ++ rest ∧ ∀ c ∈ rest.head?, p c = false := by
  refine ⟨s.dropWhile p, List.takeWhile_append_dropWhile.symm, fun c hc => ?_⟩
  have hhead := List.head?_dropWhile_not p s
  rw [hc] at hhead
  exact hhead

end DirectoryLens.Text
