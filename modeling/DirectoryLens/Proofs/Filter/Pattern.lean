/-
Patterns as they are written.

* `joinPieces_piecesOfPattern`: a pattern is written with its asterisks left as they are;
* `count_escapePattern`, `length_piecesOfPattern`: so it has a wildcard for each asterisk, and one
  piece more;
* `piecesOfPattern_eq_singleton_iff`: it is all one piece when it is without asterisks.
-/
import DirectoryLens.Proofs.Filter.Reader

namespace DirectoryLens.Filter

/-- A pattern is written as its pieces with wildcards between them. -/
lemma joinPieces_piecesOfPattern (bs : Octets) :
    joinPieces ((piecesOfPattern bs).map escape) = escapePattern bs := by
  induction bs with
  | nil => rfl
  | cons b bs ih =>
      obtain ⟨piece, pieces, hpieces⟩ := List.exists_cons_of_ne_nil (List.splitOn_ne_nil 0x2A bs)
      rw [piecesOfPattern, hpieces, joinPieces] at ih
      rw [piecesOfPattern, List.splitOn_cons_eq_if_modifyHead, hpieces, escapePattern,
        List.flatMap_cons, ← escapePattern, ← ih, joinPieces]
      by_cases hb : b = 0x2A
      · rw [if_pos (beq_iff_eq.mpr hb), if_pos hb, List.map_cons, List.map_cons,
          List.intercalate_cons_cons, ← List.map_cons]
        rfl
      · rw [if_neg (by simpa using hb), if_neg hb, List.modifyHead_cons, List.map_cons,
          List.map_cons, escape, List.flatMap_cons, ← escape]
        cases pieces.map escape with
        | nil => rw [List.intercalate_singleton, List.intercalate_singleton]
        | cons text texts =>
            rw [List.intercalate_cons_cons, List.intercalate_cons_cons, List.append_assoc,
              List.append_assoc, List.append_assoc]

/-- **A pattern is written with a wildcard for each of its asterisks.** -/
theorem count_escapePattern (bs : Octets) : (escapePattern bs).count '*' = bs.count 0x2A := by
  have hoctet : ∀ b : UInt8, b ≠ 0x2A → '*' ∉ escapeOctet b := forall_octet (by decide +kernel)
  rw [escapePattern]
  induction bs with
  | nil => rfl
  | cons b bs ih =>
      rw [List.flatMap_cons, List.count_append, ih, List.count_cons, add_comm]
      congr 1
      by_cases hb : b = 0x2A
      · simp [hb]
      · rw [if_neg hb, List.count_eq_zero_of_not_mem (hoctet b hb), if_neg (by simpa using hb)]

/-- A pattern has a piece more than asterisks. -/
lemma length_piecesOfPattern (bs : Octets) : (piecesOfPattern bs).length = bs.count 0x2A + 1 := by
  induction bs with
  | nil => rfl
  | cons b bs ih =>
      rw [piecesOfPattern] at ih ⊢
      rw [List.splitOn_cons_eq_if_modifyHead, List.count_cons]
      split_ifs with hb
      · rw [List.length_cons, ih]
      · rw [List.length_modifyHead, ih]

/-- A pattern is all one piece when it is without asterisks. -/
lemma piecesOfPattern_eq_singleton_iff (bs : Octets) :
    piecesOfPattern bs = [bs] ↔ bs.count 0x2A = 0 := by
  constructor
  · intro h
    have hlength := length_piecesOfPattern bs
    rw [h, List.length_singleton] at hlength
    omega
  · intro h
    exact List.splitOn_eq_singleton (List.count_eq_zero.mp h)

end DirectoryLens.Filter
