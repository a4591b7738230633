import LoxTokens.Proofs.Lexicon.Foresight
import LoxTokens.Proofs.Lexicon.Pieces

/-!
# Cutting a text by maximal munch

Every text is cut by maximal munch in exactly one way.  There is a way, since a
piece that is read begins every text that is not empty, and what is left is
shorter; there is only one, since the longest piece is unique.
-/

namespace LoxTokens.Lexicon

open Piece

theorem MaximalMunch.cons_of_reads {piece : Piece} {rest : List Char} {pieces : List Piece}
    (hread : Reads piece rest) (hcut : MaximalMunch rest pieces) :
    MaximalMunch (piece.text ++ rest) (piece :: pieces) :=
  .cons hread.isLongest hcut

/-- The pieces of a text make up the text. -/
theorem MaximalMunch.flatten_eq {text : List Char} {pieces : List Piece}
    (hcut : MaximalMunch text pieces) : flatten pieces = text := by
  induction hcut with
  | nil => rfl
  | cons _ _ ih => rw [flatten_cons, ih]

theorem MaximalMunch.text_ne_nil {text : List Char} {pieces : List Piece}
    (hcut : MaximalMunch text pieces) : ∀ piece ∈ pieces, piece.text ≠ [] := by
  induction hcut with
  | nil => simp
  | cons hlongest _ ih =>
      exact List.forall_mem_cons.mpr ⟨(isLongest_iff_reads.mp hlongest).text_ne_nil, ih⟩

theorem exists_maximalMunch (text : List Char) : ∃ pieces, MaximalMunch text pieces := by
  induction hlength : text.length using Nat.strongRecOn generalizing text with
  | ind length ih =>
      by_cases hempty : text = []
      · exact ⟨[], hempty ▸ .nil⟩
      · obtain ⟨piece, rest, rfl, hread⟩ := exists_reads hempty
        -- the piece takes something, so what is left is shorter
        have hpositive := List.length_pos_iff.mpr hread.text_ne_nil
        rw [List.length_append] at hlength
        obtain ⟨pieces, hcut⟩ := ih rest.length (by omega) rest rfl
        exact ⟨piece :: pieces, .cons_of_reads hread hcut⟩

theorem MaximalMunch.exists_rest {text : List Char} {piece : Piece} {pieces : List Piece}
    (hcut : MaximalMunch text (piece :: pieces)) :
    ∃ rest, text = piece.text ++ rest ∧ IsLongest piece rest ∧ MaximalMunch rest pieces := by
  cases hcut with
  | cons hlongest hcut => exact ⟨_, rfl, hlongest, hcut⟩

theorem MaximalMunch.unique {text : List Char} {pieces others : List Piece}
    (hcut : MaximalMunch text pieces) (hother : MaximalMunch text others) : others = pieces := by
  induction hcut generalizing others with
  | nil =>
      cases others with
      | nil => rfl
      | cons other others =>
          have hempty := hother.flatten_eq
          rw [flatten_cons, List.append_eq_nil_iff] at hempty
          exact absurd hempty.1 (hother.text_ne_nil other List.mem_cons_self)
  | @cons piece rest pieces hlongest _ ih =>
      cases others with
      | nil =>
          have hempty := hother.flatten_eq
          rw [flatten_nil, eq_comm, List.append_eq_nil_iff] at hempty
          exact absurd hempty.1 (isLongest_iff_reads.mp hlongest).text_ne_nil
      | cons other others =>
          -- both cuts begin with the longest piece and go on behind it
          obtain ⟨behind, hsame, hlongest', hcut'⟩ := hother.exists_rest
          obtain ⟨rfl, rfl⟩ := hlongest.unique hlongest' hsame.symm
          rw [ih hcut']

/-- What is left behind some of the pieces is cut into the others. -/
theorem MaximalMunch.of_append {text : List Char} {front back : List Piece}
    (hcut : MaximalMunch text (front ++ back)) : MaximalMunch (flatten back) back := by
  induction front generalizing text with
  | nil =>
      rw [List.nil_append] at hcut
      rw [hcut.flatten_eq]
      exact hcut
  | cons piece front ih =>
      obtain ⟨_, _, _, hcut⟩ := hcut.exists_rest
      exact ih hcut

end LoxTokens.Lexicon
