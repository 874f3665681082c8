/-
The value that stored values make together.

* `RawValue.Verbatim`: a value that a stored value is handed out as when nothing converts it;
* `Value.Together`: one value for several: a single one alone, and any other number in a list;
* `RawValue.VerbatimTogether`: stored values handed out together;
* `Value.together_iff`, `RawValue.verbatimTogether_iff`: what is computed is such a value, and no
  other value is.
-/
import Mathlib.Tactic
import DirectoryLens.Entry.Hydration

namespace DirectoryLens

/-- A stored value is handed out as it is: a text as a text, and octets as octets. -/
inductive RawValue.Verbatim : RawValue → Value → Prop
  | text (s : String) : Verbatim (.text s) (.string s)
  | binary (bs : Octets) : Verbatim (.binary bs) (.binary bs)

/-- Values make one: a single value is that one, and none or several are the list of them. -/
inductive Value.Together : List Value → Value → Prop
  | single (v : Value) : Together [v] v
  | list {vs : List Value} : vs.length ≠ 1 → Together vs (.array vs)

/-- Stored values are handed out together, each as it is. -/
def RawValue.VerbatimTogether (values : List RawValue) (v : Value) : Prop :=
  ∃ vs, List.Forall₂ RawValue.Verbatim values vs ∧ Value.Together vs v

/-- The value that several values make. -/
@[simp] lemma Value.together_iff {vs : List Value} {v : Value} :
    Together vs v ↔ collapse vs = v := by
  constructor
  · rintro (_ | hlength)
    · rfl
    · rcases vs with _ | ⟨v, _ | ⟨w, vs⟩⟩
      · rfl
      · exact absurd rfl hlength
      · rfl
  · rintro rfl
    rcases vs with _ | ⟨v, _ | ⟨w, vs⟩⟩
    · exact .list (by simp)
    · exact .single v
    · exact .list (by simp)

namespace RawValue

variable {raw : RawValue} {values : List RawValue} {v : Value}

/-- The value that a stored value is handed out as. -/
@[simp] lemma verbatim_iff : raw.Verbatim v ↔ raw.toValue = v := by
  constructor
  · rintro (_ | _) <;> rfl
  · rintro rfl
    cases raw with
    | text s => exact .text s
    | binary bs => exact .binary bs

/-- The values that stored values are handed out as. -/
lemma forall₂_verbatim_iff {vs : List Value} :
    List.Forall₂ Verbatim values vs ↔ values.map toValue = vs := by
  have hverbatim : Verbatim = fun raw v => raw.toValue = v := by
    ext raw v
    exact verbatim_iff
  rw [hverbatim, ← List.forall₂_map_left_iff, List.forall₂_eq_eq_eq]

/-- The value that stored values are handed out as together. -/
lemma verbatimTogether_iff : VerbatimTogether values v ↔ Hydrator.plain values = v := by
  simp [VerbatimTogether, forall₂_verbatim_iff, Hydrator.plain]

end RawValue

end DirectoryLens
