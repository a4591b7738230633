import LoxTokens.Proofs.Lexicon.Pieces

/-!
# What a scan finds lies in order

The pieces of a text lie one behind the other, and a token or a fault takes
exactly the stretch of its piece.  So both lists of a scan are in the order of
the text: what comes earlier in a list ends before the next one begins, and all
of it lies within the pieces that it comes from.

Tokens and faults are picked out of the same lexemes.  `KeepsPlaces` is what
the two ways to pick have in common, and the order follows from it alone.
-/

namespace LoxTokens

open Text

/-- The offset behind a stretch. -/
def Span.stop (span : Span) : Nat := span.offset + span.length

namespace Piece

/-- What is picked from a lexeme takes the stretch of the piece that the lexeme
is. -/
def KeepsPlaces {α : Type} (pick : Lexeme → Option α) (spanOf : α → Span) : Prop :=
  ∀ (piece : Piece) (offset line : Nat) (found : α),
    pick (piece.lexemeAt offset line) = some found → spanOf found = ⟨offset, bytes piece.text⟩

theorem keepsPlaces_token? : KeepsPlaces Lexeme.token? Token.span := by
  intro piece offset line token htoken
  unfold lexemeAt at htoken
  cases hsense : piece.sense <;> rw [hsense] at htoken <;> cases htoken
  rfl

theorem keepsPlaces_fault? : KeepsPlaces Lexeme.fault? Fault.span := by
  intro piece offset line fault hfault
  unfold lexemeAt at hfault
  cases hsense : piece.sense <;> rw [hsense] at hfault <;> cases hfault
  rfl

section

variable {α : Type} {pick : Lexeme → Option α} {spanOf : α → Span}

theorem KeepsPlaces.bounds (hkeeps : KeepsPlaces pick spanOf) {offset line : Nat}
    {pieces : List Piece} {found : α}
    (hmem : found ∈ (lexemesFrom offset line pieces).filterMap pick) :
    offset ≤ (spanOf found).offset ∧
      (spanOf found).stop ≤ offset + bytes (flatten pieces) := by
  obtain ⟨lexeme, hlexeme, hpick⟩ := List.mem_filterMap.mp hmem
  obtain ⟨front, piece, back, rfl, rfl⟩ := exists_piece_of_mem_lexemesFrom hlexeme
  have hspan := hkeeps _ _ _ _ hpick
  have hsize : bytes (flatten (front ++ piece :: back)) =
      bytes (flatten front) + (bytes piece.text + bytes (flatten back)) := by
    simp
  rw [hspan, hsize]
  simp only [Span.stop]
  omega

theorem KeepsPlaces.offset_lt (hkeeps : KeepsPlaces pick spanOf) {offset line : Nat}
    {pieces : List Piece} {found : α} (hne : ∀ piece ∈ pieces, piece.text ≠ [])
    (hmem : found ∈ (lexemesFrom offset line pieces).filterMap pick) :
    (spanOf found).offset < offset + bytes (flatten pieces) := by
  have hstop := (hkeeps.bounds hmem).2
  obtain ⟨lexeme, hlexeme, hpick⟩ := List.mem_filterMap.mp hmem
  obtain ⟨front, piece, back, rfl, rfl⟩ := exists_piece_of_mem_lexemesFrom hlexeme
  have hpositive : 0 < bytes piece.text := bytes_pos (hne piece (by simp))
  have hspan := hkeeps _ _ _ _ hpick
  rw [hspan, Span.stop] at hstop
  rw [hspan]
  dsimp only at hstop ⊢
  omega

/-- Nothing ends within the first piece. -/
theorem KeepsPlaces.le_stop (hkeeps : KeepsPlaces pick spanOf) {offset line : Nat} {piece : Piece}
    {pieces : List Piece} {found : α}
    (hmem : found ∈ (lexemesFrom offset line (piece :: pieces)).filterMap pick) :
    offset + bytes piece.text ≤ (spanOf found).stop := by
  obtain ⟨lexeme, hlexeme, hpick⟩ := List.mem_filterMap.mp hmem
  rcases List.mem_cons.mp hlexeme with rfl | hlater
  · rw [hkeeps _ _ _ _ hpick]
    exact Nat.le_refl _
  · have hbounds := hkeeps.bounds (List.mem_filterMap.mpr ⟨lexeme, hlater, hpick⟩)
    exact Nat.le_trans hbounds.1 (Nat.le_add_right _ _)

theorem KeepsPlaces.pairwise (hkeeps : KeepsPlaces pick spanOf) (offset line : Nat)
    (pieces : List Piece) :
    ((lexemesFrom offset line pieces).filterMap pick).Pairwise fun earlier later =>
      (spanOf earlier).stop ≤ (spanOf later).offset := by
  induction pieces generalizing offset line with
  | nil => exact List.Pairwise.nil
  | cons piece pieces ih =>
      rw [lexemesFrom, List.filterMap_cons]
      cases hpick : pick (piece.lexemeAt offset line) with
      | none => exact ih _ _
      | some found =>
          refine List.pairwise_cons.mpr ⟨?_, ih _ _⟩
          intro later hlater
          -- the first piece ends where the others begin
          rw [hkeeps _ _ _ _ hpick]
          exact (hkeeps.bounds hlater).1

end

variable {offset line : Nat} {pieces : List Piece}

theorem bounds_of_mem_tokensFrom {token : Token} (hmem : token ∈ tokensFrom offset line pieces) :
    offset ≤ token.span.offset ∧ token.span.stop ≤ offset + bytes (flatten pieces) :=
  keepsPlaces_token?.bounds hmem

theorem le_stop_of_mem_tokensFrom {piece : Piece} {token : Token}
    (hmem : token ∈ tokensFrom offset line (piece :: pieces)) :
    offset + bytes piece.text ≤ token.span.stop :=
  keepsPlaces_token?.le_stop hmem

theorem pairwise_tokensFrom (offset line : Nat) (pieces : List Piece) :
    (tokensFrom offset line pieces).Pairwise fun earlier later =>
      earlier.span.stop ≤ later.span.offset :=
  keepsPlaces_token?.pairwise offset line pieces

theorem pairwise_faultsFrom (offset line : Nat) (pieces : List Piece) :
    (faultsFrom offset line pieces).Pairwise fun earlier later =>
      earlier.span.stop ≤ later.span.offset :=
  keepsPlaces_fault?.pairwise offset line pieces

end Piece

end LoxTokens
