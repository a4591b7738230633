import LoxTokens.Proofs.Lexicon.Scanning
import LoxTokens.Proofs.Positions.Order
import LoxTokens.Proofs.Splicing.Neighbours

/-!
# Texts that go on

When a text goes on, only its last lexemes may be read in another way.  The
reader looks at one character behind a lexeme, and at two only where a point
stands behind digits.  So a lexeme is decided as soon as something is left
behind it that is not a single point:

```text
1.          the number may go on with the point
1.x  1é     it ends in front of the point, or of the letter
```

Two bytes behind a token are therefore enough to keep it, and a character at
fault is enough to keep all that stands in front of it.  Everything earlier has
even more left behind it, so what is kept is the beginning of both scans.
-/

namespace LoxTokens

open Lexicon Piece Text

/-! ## What is left behind a piece -/

namespace Lexicon

theorem StartsFraction.of_append_of_ne {rest more : List Char} (hne : rest ≠ [])
    (hpoint : rest ≠ ['.']) (hfraction : StartsFraction (rest ++ more)) : StartsFraction rest := by
  match rest with
  | [] => exact absurd rfl hne
  | [c] =>
      have hc : c = '.' := Option.some.inj hfraction.1
      exact absurd (congrArg (fun d => [d]) hc) hpoint
  | _ :: _ :: _ => exact hfraction

theorem mayReplace_append {piece : Piece} {rest : List Char} (hread : Reads piece rest)
    (hne : rest ≠ []) (hpoint : rest ≠ ['.']) (more : List Char) :
    MayReplace piece rest (rest ++ more) where
  head := by
    intro c hc
    obtain ⟨d, others, rfl⟩ := List.exists_cons_of_ne_nil hne
    exact Or.inl hc
  fraction := .of_append_of_ne hne hpoint
  openString := by
    intro hopen
    exact absurd (hread.rest_eq_nil hopen) hne

/-- **Pieces stay when the text goes on**, if something is left behind them that
is not a single point. -/
theorem MaximalMunch.lengthen {text more : List Char} {front old back : List Piece}
    (hcut : MaximalMunch text (front ++ old)) (hback : MaximalMunch (flatten old ++ more) back)
    (hne : flatten old ≠ []) (hpoint : flatten old ≠ ['.']) :
    MaximalMunch (text ++ more) (front ++ back) := by
  have htext : text ++ more = flatten front ++ (flatten old ++ more) := by
    rw [← hcut.flatten_eq, flatten_append, List.append_assoc]
  rw [htext]
  refine hcut.replace hback fun piece _ behind hread => ?_
  -- in front of some pieces there is even more behind a piece
  have hrest : behind ++ flatten old ≠ [] := by simp [hne]
  have hmore : behind ++ flatten old ≠ ['.'] := by
    intro hsingle
    rcases List.append_eq_singleton_iff.mp hsingle with ⟨_, hold⟩ | ⟨_, hold⟩
    · exact hpoint hold
    · exact hne hold
  rw [← List.append_assoc]
  exact mayReplace_append hread hrest hmore more

end Lexicon

/-! ## Tokens that are decided -/

/-- The tokens of a text that end at least two bytes before its end. -/
def decidedTokens (source : String) : List Token :=
  (scan source).inner.filter fun token => token.span.stop + 2 ≤ bytes source.toList

/-- The characters at fault that a scan has found, without a string left open. -/
def Scan.foreign (scan : Scan) : List Fault :=
  scan.faults.filter fun fault => fault.cause ≠ .openString

theorem inner_isPrefix_tokens (source : String) : (scan source).inner <+: (scan source).tokens := by
  obtain ⟨pieces, hcut⟩ := exists_maximalMunch source.toList
  rw [inner_of_cut hcut, scan_of_cut hcut]
  exact List.prefix_append _ _

/-- Where a property of what is left gets lost. -/
theorem exists_last {P : List Piece → Prop} (hnil : ¬ P []) {pieces : List Piece}
    (hall : P pieces) :
    ∃ front piece back, pieces = front ++ piece :: back ∧ P (piece :: back) ∧ ¬ P back := by
  induction pieces with
  | nil => exact absurd hall hnil
  | cons piece pieces ih =>
      by_cases hrest : P pieces
      · obtain ⟨front, last, back, rfl, hlast, hback⟩ := ih hrest
        exact ⟨piece :: front, last, back, rfl, hlast, hback⟩
      · exact ⟨[], piece, pieces, rfl, hall, hrest⟩

section

variable {source more : String} {front back : List Piece} {piece : Piece}

/-! ### Tokens -/

theorem decidedTokens_of_cut (hcut : MaximalMunch source.toList (front ++ piece :: back))
    (hpiece : 2 ≤ bytes (flatten (piece :: back))) (hback : bytes (flatten back) < 2) :
    decidedTokens source = tokensFrom 0 1 front := by
  have hsize : bytes source.toList =
      bytes (flatten front) + bytes (flatten (piece :: back)) := by
    rw [← hcut.flatten_eq, flatten_append, bytes_append]
  have hkeep : ∀ token ∈ tokensFrom 0 1 front,
      decide (token.span.stop + 2 ≤ bytes source.toList) = true := by
    intro token hmem
    have hbounds := bounds_of_mem_tokensFrom hmem
    rw [decide_eq_true_eq]
    omega
  have hdrop : ∀ token ∈ tokensFrom (0 + bytes (flatten front)) (1 + lineFeeds (flatten front))
      (piece :: back), ¬ decide (token.span.stop + 2 ≤ bytes source.toList) = true := by
    intro token hmem
    have hstop := le_stop_of_mem_tokensFrom hmem
    rw [flatten_cons, bytes_append] at hsize
    rw [decide_eq_true_eq]
    omega
  rw [decidedTokens, inner_of_cut hcut, tokensFrom_append, List.filter_append,
    List.filter_eq_self.mpr hkeep, List.filter_eq_nil_iff.mpr hdrop, List.append_nil]

theorem decidedTokens_eq_nil (hsmall : bytes source.toList < 2) : decidedTokens source = [] := by
  refine List.filter_eq_nil_iff.mpr fun token _ => ?_
  rw [decide_eq_true_eq]
  omega

theorem decidedTokens_isPrefix_longer (source more : String) :
    decidedTokens source <+: (scan (source ++ more)).inner := by
  obtain ⟨pieces, hcut⟩ := exists_maximalMunch source.toList
  by_cases hlarge : 2 ≤ bytes (flatten pieces)
  · obtain ⟨front, piece, back, rfl, hpiece, hback⟩ :=
      exists_last (P := fun rest => 2 ≤ bytes (flatten rest)) (by simp) hlarge
    -- two bytes are more than nothing and more than a point
    have hne : flatten (piece :: back) ≠ [] := by
      intro hnil
      simp [hnil] at hpiece
    have hpoint : flatten (piece :: back) ≠ ['.'] := by
      intro hsingle
      rw [hsingle] at hpiece
      exact absurd hpiece (by decide)
    obtain ⟨others, hothers⟩ := exists_maximalMunch (flatten (piece :: back) ++ more.toList)
    have hlonger : MaximalMunch (source ++ more).toList (front ++ others) := by
      rw [String.toList_append]
      exact hcut.lengthen hothers hne hpoint
    rw [decidedTokens_of_cut hcut hpiece (Nat.lt_of_not_le hback), inner_of_cut hlonger]
    exact tokensFrom_isPrefix_append 0 1 front others
  · rw [hcut.flatten_eq] at hlarge
    rw [decidedTokens_eq_nil (Nat.lt_of_not_le hlarge)]
    exact List.nil_prefix

/-! ### Characters at fault -/

/-- Without an open string all faults are characters. -/
theorem filter_faultsFrom_of_closed {pieces : List Piece}
    (hclosed : ∀ piece ∈ pieces, piece.sense ≠ .fault .openString) (offset line : Nat) :
    (faultsFrom offset line pieces).filter (fun fault => fault.cause ≠ .openString) =
      faultsFrom offset line pieces := by
  refine List.filter_eq_self.mpr fun fault hmem => ?_
  obtain ⟨piece, hpiece, hsense⟩ := exists_sense_of_mem_faultsFrom hmem
  rw [decide_eq_true_eq]
  intro hopen
  exact hclosed piece hpiece (hopen ▸ hsense)

/-- Whether a piece is a character at fault. -/
def Piece.IsForeign (piece : Piece) : Prop := ∃ c, piece.sense = .fault (.foreignCharacter c)

theorem filter_faultsFrom_eq_nil {pieces : List Piece}
    (hnone : ∀ piece ∈ pieces, ¬ piece.IsForeign) (offset line : Nat) :
    (faultsFrom offset line pieces).filter (fun fault => fault.cause ≠ .openString) = [] := by
  refine List.filter_eq_nil_iff.mpr fun fault hmem => ?_
  obtain ⟨piece, hpiece, hsense⟩ := exists_sense_of_mem_faultsFrom hmem
  cases hcause : fault.cause with
  | openString => simp
  | foreignCharacter c => exact absurd ⟨c, hcause ▸ hsense⟩ (hnone piece hpiece)

theorem Lexicon.Reads.eq_of_isForeign {rest : List Char} (hread : Reads piece rest)
    (hforeign : piece.IsForeign) :
    ∃ c, Start.ofChar c = .foreign ∧ piece = ⟨[c], .fault (.foreignCharacter c)⟩ := by
  obtain ⟨c, hsense⟩ := hforeign
  cases hread with
  | foreign hc => exact ⟨_, hc, rfl⟩
  | _ => cases hsense

/-- A character at fault is read again, whatever the text goes on with. -/
theorem Lexicon.MaximalMunch.lengthen_isForeign {text : List Char}
    (hcut : MaximalMunch text (front ++ piece :: back)) (hforeign : piece.IsForeign)
    (more : List Char) : ∃ others, MaximalMunch (text ++ more) (front ++ [piece] ++ others) := by
  obtain ⟨rest, _, hlongest, _⟩ := hcut.of_append.exists_rest
  obtain ⟨c, hc, rfl⟩ := (isLongest_iff_reads.mp hlongest).eq_of_isForeign hforeign
  obtain ⟨others, hothers⟩ := exists_maximalMunch (flatten back ++ more)
  have hpoint : c ≠ '.' := by
    rintro rfl
    cases hc
  refine ⟨others, ?_⟩
  rw [List.append_assoc, List.singleton_append]
  exact hcut.lengthen (.cons_of_reads (.foreign hc) hothers) (by simp) (by simp [hpoint])

theorem foreign_of_cut (hcut : MaximalMunch source.toList (front ++ piece :: back))
    (hpiece : piece.IsForeign) (hback : ∀ other ∈ back, ¬ other.IsForeign) :
    (scan source).foreign = faultsFrom 0 1 (front ++ [piece]) := by
  have hclosed : ∀ other ∈ front ++ [piece], other.sense ≠ .fault .openString := by
    have hne := hcut.text_ne_nil piece (by simp)
    refine List.forall_mem_append.mpr ⟨hcut.sense_ne_openString (by simp [hne]), ?_⟩
    obtain ⟨c, hforeign⟩ := hpiece
    simp [hforeign]
  have hall : front ++ piece :: back = front ++ [piece] ++ back := by simp
  rw [hall] at hcut
  rw [Scan.foreign, scan_of_cut hcut, faultsFrom_append, List.filter_append,
    filter_faultsFrom_of_closed hclosed, filter_faultsFrom_eq_nil hback, List.append_nil]

theorem foreign_isPrefix_longer (source more : String) :
    (scan source).foreign <+: (scan (source ++ more)).faults := by
  obtain ⟨pieces, hcut⟩ := exists_maximalMunch source.toList
  by_cases hsome : ∃ piece ∈ pieces, piece.IsForeign
  · obtain ⟨front, piece, back, rfl, ⟨last, hmem, hlast⟩, hnone⟩ :=
      exists_last (P := fun rest => ∃ piece ∈ rest, piece.IsForeign) (by simp) hsome
    have hback : ∀ other ∈ back, ¬ other.IsForeign := by
      intro other hother hforeign
      exact hnone ⟨other, hother, hforeign⟩
    have hpiece : piece.IsForeign := by
      rcases List.mem_cons.mp hmem with rfl | hmem
      · exact hlast
      · exact absurd hlast (hback last hmem)
    obtain ⟨others, hlonger⟩ := hcut.lengthen_isForeign hpiece more.toList
    rw [← String.toList_append] at hlonger
    rw [foreign_of_cut hcut hpiece hback, scan_of_cut hlonger]
    exact faultsFrom_isPrefix_append 0 1 (front ++ [piece]) others
  · have hnone : ∀ piece ∈ pieces, ¬ piece.IsForeign := by
      intro piece hpiece hforeign
      exact hsome ⟨piece, hpiece, hforeign⟩
    rw [Scan.foreign, scan_of_cut hcut, filter_faultsFrom_eq_nil hnone]
    exact List.nil_prefix

end

/-- **What is decided in a text stays when the text goes on.**  The tokens that
end at least two bytes before the end begin both lists of tokens, and all
characters at fault begin both lists of faults, in the same places. -/
theorem scan_append (source more : String) :
    decidedTokens source <+: (scan source).tokens ∧
    decidedTokens source <+: (scan (source ++ more)).tokens ∧
    (scan source).foreign <+: (scan source).faults ∧
    (scan source).foreign <+: (scan (source ++ more)).faults := by
  -- nothing behind a text is a way to go on as well
  have hsame : source ++ "" = source := String.append_empty
  have htokens := decidedTokens_isPrefix_longer source ""
  have hfaults := foreign_isPrefix_longer source ""
  rw [hsame] at htokens hfaults
  exact ⟨htokens.trans (inner_isPrefix_tokens source),
    (decidedTokens_isPrefix_longer source more).trans (inner_isPrefix_tokens _), hfaults,
    foreign_isPrefix_longer source more⟩

end LoxTokens
