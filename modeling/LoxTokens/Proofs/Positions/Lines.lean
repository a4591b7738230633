import LoxTokens.Proofs.Positions.Order
import LoxTokens.Proofs.Splicing.Substring
import LoxTokens.Text.Position

/-!
# The lines that a scan counts

A scan counts line feeds in two places: one at a time between lexemes, and all
those in the body of a string at once.  Comments leave theirs to be read as
lexemes of their own.  Whatever the way, between two lexemes the count agrees
with the text that has been read,

```text
line = 1 + number of line feeds before the offset
```

A token takes the line from the cursor in front of it and a fault from the
cursor behind it.  So a token is on the line of its first byte, also if it is a
string over several lines, and a fault is on the line of its end.  As the
tokens lie in the order of the text, and so do the faults, the lines never
decrease along either list.
-/

namespace LoxTokens

open Lexicon Piece Text

/-! ## The line of an offset -/

/-- The line on which an offset of a text lies. -/
def Text.lineAt (text : List Char) (offset : Nat) : Nat := 1 + lineFeeds (before text offset)

namespace Text

theorem lineAt_append (front back : List Char) :
    lineAt (front ++ back) (bytes front) = 1 + lineFeeds front := by
  rw [lineAt, before_append]

theorem lineAt_mono (text : List Char) {first second : Nat} (hle : first ≤ second) :
    lineAt text first ≤ lineAt text second := by
  have hcount : lineFeeds (before text first) ≤ lineFeeds (before text second) :=
    (before_isPrefix_before text hle).count_le '\n'
  unfold lineAt
  omega

theorem lineAt_le (text : List Char) (offset : Nat) : lineAt text offset ≤ 1 + lineFeeds text := by
  have hcount : lineFeeds (before text offset) ≤ lineFeeds text :=
    (before_isPrefix text offset).count_le '\n'
  unfold lineAt
  omega

end Text

/-! ## Tokens, faults and cursors -/

section

variable {source : String} {pieces : List Piece}

theorem line_of_mem_tokensFrom (hcut : MaximalMunch source.toList pieces) {token : Token}
    (hmem : token ∈ tokensFrom 0 1 pieces) :
    token.line = lineAt source.toList token.span.offset := by
  obtain ⟨front, piece, back, rfl, _, _, hline, hspan⟩ := exists_piece_of_mem_tokensFrom hmem
  have hsource : source.toList = flatten front ++ flatten (piece :: back) := by
    rw [← hcut.flatten_eq, flatten_append]
  rw [hline, hspan, hsource, Nat.zero_add, lineAt_append]

theorem line_of_mem_faultsFrom (hcut : MaximalMunch source.toList pieces) {fault : Fault}
    (hmem : fault ∈ faultsFrom 0 1 pieces) :
    fault.line = lineAt source.toList fault.span.stop := by
  obtain ⟨front, piece, back, rfl, _, hline, hspan⟩ := exists_piece_of_mem_faultsFrom hmem
  have hsource : source.toList = flatten (front ++ [piece]) ++ flatten back := by
    rw [← hcut.flatten_eq, ← flatten_append, List.append_assoc, List.singleton_append]
  have hstop : fault.span.stop = bytes (flatten (front ++ [piece])) := by
    simp [hspan, Span.stop]
  rw [hline, hstop, hsource, lineAt_append]

theorem Reached.line_eq {cursor : Cursor} (hreached : Reached source.toList cursor) :
    cursor.line = lineAt source.toList cursor.offset := by
  obtain ⟨pieces, hcut⟩ := exists_maximalMunch source.toList
  obtain ⟨front, back, rfl, hoffset, _, hline⟩ := hreached.exists_front hcut
  have hsource : source.toList = flatten front ++ flatten back := by
    rw [← hcut.flatten_eq, flatten_append]
  rw [hline, hoffset, hsource, lineAt_append]

/-! ## Lines along the lists -/

theorem pairwise_line_tokensFrom (hcut : MaximalMunch source.toList pieces) :
    (tokensFrom 0 1 pieces).Pairwise fun earlier later => earlier.line ≤ later.line := by
  refine (pairwise_tokensFrom 0 1 pieces).imp_of_mem ?_
  intro earlier later hearlier hlater hstop
  rw [line_of_mem_tokensFrom hcut hearlier, line_of_mem_tokensFrom hcut hlater]
  exact lineAt_mono _ (Nat.le_trans (Nat.le_add_right _ _) hstop)

theorem pairwise_line_faultsFrom (hcut : MaximalMunch source.toList pieces) :
    (faultsFrom 0 1 pieces).Pairwise fun earlier later => earlier.line ≤ later.line := by
  refine (pairwise_faultsFrom 0 1 pieces).imp_of_mem ?_
  intro earlier later hearlier hlater hstop
  rw [line_of_mem_faultsFrom hcut hearlier, line_of_mem_faultsFrom hcut hlater]
  refine lineAt_mono _ (Nat.le_trans hstop ?_)
  exact Nat.le_add_right _ _

end

/-- **A line is one more than the line feeds before it.**  For a token they are
counted up to its first byte, for a fault up to its end, for the end of the text
over all of it, and a cursor between two lexemes has counted those behind it.
So lines never decrease along the tokens or along the faults, and none is
greater than the line of the end. -/
theorem scan_lines (source : String) :
    (∀ token ∈ (scan source).inner, token.line = lineAt source.toList token.span.offset) ∧
    (∀ fault ∈ (scan source).faults, fault.line = lineAt source.toList fault.span.stop) ∧
    (scan source).tokens = (scan source).inner ++
      [.eof (1 + lineFeeds source.toList) (bytes source.toList)] ∧
    (∀ cursor, Reached source.toList cursor →
      cursor.line = lineAt source.toList cursor.offset) ∧
    (scan source).tokens.Pairwise (fun earlier later => earlier.line ≤ later.line) ∧
    (scan source).faults.Pairwise (fun earlier later => earlier.line ≤ later.line) ∧
    (∀ token ∈ (scan source).tokens, token.line ≤ 1 + lineFeeds source.toList) ∧
    ∀ fault ∈ (scan source).faults, fault.line ≤ 1 + lineFeeds source.toList := by
  obtain ⟨pieces, hcut⟩ := exists_maximalMunch source.toList
  have hle : ∀ token ∈ tokensFrom 0 1 pieces, token.line ≤ 1 + lineFeeds source.toList := by
    intro token hmem
    rw [line_of_mem_tokensFrom hcut hmem]
    exact lineAt_le _ _
  rw [inner_of_cut hcut, scan_of_cut hcut]
  refine ⟨fun token => line_of_mem_tokensFrom hcut, fun fault => line_of_mem_faultsFrom hcut, rfl,
    fun cursor => Reached.line_eq, ?_, pairwise_line_faultsFrom hcut, ?_, ?_⟩
  · -- the token for the end comes last and has the last line
    refine List.pairwise_append.mpr
      ⟨pairwise_line_tokensFrom hcut, List.pairwise_singleton _ _, ?_⟩
    intro token hmem last hlast
    rw [List.mem_singleton.mp hlast]
    exact hle token hmem
  · intro token hmem
    rcases List.mem_append.mp hmem with hmem | hlast
    · exact hle token hmem
    · rw [List.mem_singleton.mp hlast]
      exact Nat.le_refl _
  · intro fault hmem
    rw [line_of_mem_faultsFrom hcut hmem]
    exact lineAt_le _ _

/-- A string over two lines, and behind it one over two lines that stays open. -/
theorem scan_lines_open_string :
    lineAt "\"a\nb\" \"c\nd".toList 0 = 1 ∧ lineAt "\"a\nb\" \"c\nd".toList 10 = 3 ∧
      lineAt "\"a\nb\" \"c\nd".toList 5 = 2 := by
  have htoken : (⟨.string, "\"a\nb\"", some (.string "a\nb"), 1, ⟨0, 5⟩⟩ : Token) ∈
      (scan "\"a\nb\" \"c\nd").inner :=
    List.mem_of_getElem? (i := 0) (by with_unfolding_all rfl)
  have hfault : (⟨.openString, 3, ⟨6, 4⟩, .unknown⟩ : Fault) ∈ (scan "\"a\nb\" \"c\nd").faults :=
    List.mem_of_getElem? (i := 0) (by with_unfolding_all rfl)
  obtain ⟨htokens, hfaults, _, hcursors, _⟩ := scan_lines "\"a\nb\" \"c\nd"
  exact ⟨(htokens _ htoken).symm, (hfaults _ hfault).symm, (hcursors _ (.next .start rfl)).symm⟩

end LoxTokens
