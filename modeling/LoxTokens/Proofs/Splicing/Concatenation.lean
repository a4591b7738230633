import LoxTokens.Proofs.Lexicon.Scanning
import LoxTokens.Proofs.Splicing.Neighbours

/-!
# Scanning one text below another

A line feed ends every lexeme but a string.  So if no string stays open in a
text, another text may be put below it, and each of them is scanned as it is by
itself: what the lower one holds has only moved by the bytes and the lines of
the upper one and of the line feed between them.

The upper text may end in a comment, a number or an operator that might have
gone on, or it may have other faults.  None of this sees past the line feed.
-/

namespace LoxTokens

open Lexicon Piece Text

/-! ## In front of a line feed -/

theorem mayReplace_of_lineFeed {piece : Piece} {behind other : List Char}
    (hclosed : piece.sense ≠ .fault .openString) :
    MayReplace piece behind (behind ++ '\n' :: other) := by
  have hends : ∀ c ∈ ('\n' :: other).head?,
      c = '\n' ∨ (c ∈ [' ', '\t', '\r'] ∧ piece.sense ≠ .trivia) := by
    intro c hc
    exact Or.inl (Option.some.inj hc).symm
  have hreplace := mayReplace_behind behind [] hclosed hends
  rwa [List.append_nil] at hreplace

/-- The line feed between two texts is a piece of its own. -/
theorem MaximalMunch.below {upper lower : List Char} {front back : List Piece}
    (hfront : MaximalMunch upper front) (hback : MaximalMunch lower back)
    (hclosed : ∀ piece ∈ front, piece.sense ≠ .fault .openString) :
    MaximalMunch (upper ++ '\n' :: lower) (front ++ ⟨['\n'], .trivia⟩ :: back) := by
  have hlineFeed : MaximalMunch ('\n' :: lower) (⟨['\n'], .trivia⟩ :: back) :=
    .cons_of_reads .lineFeed hback
  have hall : MaximalMunch upper (front ++ []) := by
    rw [List.append_nil]
    exact hfront
  have hcut := hall.replace hlineFeed fun piece hmem behind _ => by
    rw [flatten_nil, List.append_nil]
    exact mayReplace_of_lineFeed (hclosed piece hmem)
  rw [hfront.flatten_eq] at hcut
  exact hcut

/-! ## Both texts -/

theorem tokensFrom_below (upper : List Char) (back : List Piece) :
    tokensFrom (0 + bytes upper) (1 + lineFeeds upper) (⟨['\n'], .trivia⟩ :: back) =
      (tokensFrom 0 1 back).map (.moved (bytes upper + 1) (lineFeeds upper + 1)) := by
  rw [← tokensFrom_moved, tokensFrom_trivia]
  rfl

theorem faultsFrom_below (upper : List Char) (back : List Piece) :
    faultsFrom (0 + bytes upper) (1 + lineFeeds upper) (⟨['\n'], .trivia⟩ :: back) =
      (faultsFrom 0 1 back).map (.moved (bytes upper + 1) (lineFeeds upper + 1)) := by
  rw [← faultsFrom_moved, faultsFrom_trivia]
  rfl

/-- The end of both texts is the end of the lower one. -/
theorem eof_below (upper lower : List Char) :
    Token.eof (1 + lineFeeds (upper ++ '\n' :: lower)) (bytes (upper ++ '\n' :: lower)) =
      (Token.eof (1 + lineFeeds lower) (bytes lower)).moved (bytes upper + 1)
        (lineFeeds upper + 1) := by
  have hbytes : bytes (upper ++ '\n' :: lower) = bytes lower + (bytes upper + 1) := by
    rw [bytes_append, bytes_cons, show '\n'.utf8Size = 1 from rfl]
    omega
  have hlines : 1 + lineFeeds (upper ++ '\n' :: lower) =
      1 + lineFeeds lower + (lineFeeds upper + 1) := by
    rw [lineFeeds_append, show lineFeeds ('\n' :: lower) = lineFeeds lower + 1 by simp [lineFeeds]]
    omega
  rw [hbytes, hlines]
  rfl

/-- **A text below another one is scanned as it is by itself**, if no string is
left open in the upper text.  The scan finds what it finds in the upper text,
but for the end, and then what it finds in the lower text, moved by the bytes
and the lines of what is above. -/
theorem scan_below (upper lower : String)
    (hclosed : ∀ fault ∈ (scan upper).faults, fault.cause ≠ .openString) :
    scan (upper ++ "\n" ++ lower) =
      ⟨(scan upper).inner ++ (scan lower).tokens.map
          (.moved (bytes upper.toList + 1) (lineFeeds upper.toList + 1)),
        (scan upper).faults ++ (scan lower).faults.map
          (.moved (bytes upper.toList + 1) (lineFeeds upper.toList + 1))⟩ := by
  obtain ⟨front, hfront⟩ := exists_maximalMunch upper.toList
  obtain ⟨back, hback⟩ := exists_maximalMunch lower.toList
  have hpieces : ∀ piece ∈ front, piece.sense ≠ .fault .openString := by
    intro piece hmem hsense
    obtain ⟨fault, hfault, hcause⟩ := exists_mem_faultsFrom hmem hsense 0 1
    rw [scan_of_cut hfront] at hclosed
    exact hclosed fault hfault hcause
  have hsource : (upper ++ "\n" ++ lower).toList = upper.toList ++ '\n' :: lower.toList := by
    simp
  have hcut := MaximalMunch.below hfront hback hpieces
  rw [← hsource] at hcut
  rw [scan_of_cut hcut, inner_of_cut hfront, scan_of_cut hfront, scan_of_cut hback, hsource,
    tokensFrom_append, faultsFrom_append, hfront.flatten_eq, tokensFrom_below, faultsFrom_below,
    eof_below, List.map_append, List.append_assoc, List.map_singleton]

/-- A name below a comment and a character at fault in front of it. -/
theorem scan_below_comment :
    scan ("@ // a" ++ "\n" ++ "b") =
      ⟨(scan "@ // a").inner ++ (scan "b").tokens.map (.moved 7 1),
        (scan "@ // a").faults ++ (scan "b").faults.map (.moved 7 1)⟩ :=
  scan_below "@ // a" "b" (by decide +kernel)

end LoxTokens
