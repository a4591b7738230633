import LoxTokens.Proofs.Lexicon.Scanning
import LoxTokens.Proofs.Splicing.Neighbours
import LoxTokens.Text.Slice

/-!
# Writing tokens out again

The tokens of a text, written out in any other layout, are scanned to the same
tokens again.  A layout puts blanks and line feeds of any number between two
tokens, at least one, and any number of them, or none, around them all:

```text
lead  token  gap  token  gap  …  token  gap
```

Every lexeme of a token ends in front of a blank, whatever stood behind it in
the first text, and blanks are lexemes by themselves.
-/

namespace LoxTokens

open Lexicon Piece Text

/-! ## Layouts -/

/-- The characters that keep tokens apart. -/
def IsSpace (c : Char) : Prop := c ∈ [' ', '\t', '\r', '\n']

/-- A way to write tokens out. -/
structure Layout (tokens : List Token) where
  /-- What stands in front of the first token. -/
  lead : List Char
  /-- The tokens, each with the gap behind it. -/
  spaced : List (Token × List Char)
  tokens_eq : spaced.map Prod.fst = tokens
  lead_space : ∀ c ∈ lead, IsSpace c
  gap_space : ∀ pair ∈ spaced, ∀ c ∈ pair.2, IsSpace c
  /-- Only behind the last token there may be no gap. -/
  gap_ne_nil : ∀ pair ∈ spaced.dropLast, pair.2 ≠ []

namespace Layout

/-- The text of tokens with their gaps. -/
def write : List (Token × List Char) → List Char
  | [] => []
  | (token, gap) :: spaced => token.lexeme.toList ++ (gap ++ write spaced)

/-- The tokens as they stand in what is written behind some text. -/
def place (before : List Char) : List (Token × List Char) → List Token
  | [] => []
  | (token, gap) :: spaced =>
    { token with
      line := 1 + lineFeeds before
      span := ⟨bytes before, bytes token.lexeme.toList⟩ } ::
      place (before ++ (token.lexeme.toList ++ gap)) spaced

variable {tokens : List Token}

/-- The text that is written. -/
def text (layout : Layout tokens) : List Char := layout.lead ++ write layout.spaced

/-- The tokens where they are written. -/
def placed (layout : Layout tokens) : List Token := place layout.lead layout.spaced

end Layout

/-- What a token is, without its place. -/
def Token.meaning (token : Token) : Token.Kind × String × Option Literal :=
  (token.kind, token.lexeme, token.literal)

/-! ## Blanks as pieces -/

/-- The piece that a token is, wherever it stands. -/
def Token.piece (token : Token) : Piece where
  text := token.lexeme.toList
  sense := .token token.kind token.literal

/-- A gap cut into its pieces. -/
def gapPieces (gap : List Char) : List Piece := gap.map fun c => ⟨[c], .trivia⟩

/-- Tokens and gaps as pieces. -/
def Layout.pieces : List (Token × List Char) → List Piece
  | [] => []
  | (token, gap) :: spaced => token.piece :: (gapPieces gap ++ pieces spaced)

theorem IsSpace.eq_or_mem {c : Char} (hspace : IsSpace c) : c = '\n' ∨ c ∈ [' ', '\t', '\r'] := by
  rcases List.mem_append.mp (show c ∈ [' ', '\t', '\r'] ++ ['\n'] from hspace) with hblank | hline
  · exact Or.inr hblank
  · exact Or.inl (List.mem_singleton.mp hline)

theorem reads_of_isSpace {c : Char} (hspace : IsSpace c) (rest : List Char) :
    Reads ⟨[c], .trivia⟩ rest := by
  rcases hspace.eq_or_mem with rfl | hblank
  · exact .lineFeed
  · exact .blank (Start.ofChar_eq_of_admits .blank (by simp) hblank)

theorem IsSpace.ofChar_eq {c : Char} (hspace : IsSpace c) :
    Start.ofChar c = .lineFeed ∨ Start.ofChar c = .blank := by
  rcases hspace.eq_or_mem with rfl | hblank
  · exact Or.inl rfl
  · exact Or.inr (Start.ofChar_eq_of_admits .blank (by simp) hblank)

theorem not_isSpace_of_isDigit {c : Char} (hdigit : c.isDigit = true) : ¬ IsSpace c := by
  have hc := Start.ofChar_eq_of_admits .digit (by simp) hdigit
  intro hspace
  rcases hspace.ofChar_eq with hstart | hstart <;> rw [hc] at hstart <;> cases hstart

theorem not_isSpace_of_isWordChar {c : Char} (hword : Start.isWordChar c = true) :
    ¬ IsSpace c := by
  unfold Start.isWordChar at hword
  rcases Bool.or_eq_true_iff.mp hword with hletter | hdigit
  · have hc := Start.ofChar_eq_of_admits .letter (by simp) hletter
    intro hspace
    rcases hspace.ofChar_eq with hstart | hstart <;> rw [hc] at hstart <;> cases hstart
  · exact not_isSpace_of_isDigit hdigit

/-- Of all tokens only strings have blanks or line feeds in them. -/
theorem not_isSpace_of_reads {piece : Piece} {rest : List Char} {kind : Token.Kind}
    {literal : Option Literal} (hread : Reads piece rest)
    (hsense : piece.sense = .token kind literal) (hquote : piece.text.head? ≠ some '"') :
    ∀ c ∈ piece.text, ¬ IsSpace c := by
  have hstart : ∀ c : Char, Start.ofChar c ≠ .lineFeed → Start.ofChar c ≠ .blank →
      ¬ IsSpace c := by
    intro c hfeed hblank hspace
    exact hspace.ofChar_eq.elim hfeed hblank
  have hequal : ¬ IsSpace '=' := hstart '=' (by decide) (by decide)
  have hpoint : ¬ IsSpace '.' := hstart '.' (by decide) (by decide)
  cases hread with
  | punctuation hc | operator hc _ => simp [hstart, hc]
  | extendedOperator hc => simp [hstart, hc, hequal]
  | slash _ => simp [hstart '/' (by decide) (by decide)]
  | comment _ _ | blank _ | lineFeed | openString _ | foreign _ => cases hsense
  | string _ => exact absurd rfl hquote
  | integer hfirst hwhole _ _ =>
      exact List.forall_mem_cons.mpr ⟨not_isSpace_of_isDigit hfirst,
        fun c hc => not_isSpace_of_isDigit (hwhole c hc)⟩
  | decimal hfirst hwhole _ hfraction _ =>
      refine List.forall_mem_cons.mpr ⟨not_isSpace_of_isDigit hfirst, ?_⟩
      refine List.forall_mem_append.mpr ⟨fun c hc => not_isSpace_of_isDigit (hwhole c hc), ?_⟩
      exact List.forall_mem_cons.mpr ⟨hpoint, fun c hc => not_isSpace_of_isDigit (hfraction c hc)⟩
  | word hfirst hothers _ =>
      refine List.forall_mem_cons.mpr ⟨not_isSpace_of_isWordChar ?_,
        fun c hc => not_isSpace_of_isWordChar (hothers c hc)⟩
      simp [Start.isWordChar, hfirst]

theorem maximalMunch_gapPieces_append {gap rest : List Char} {pieces : List Piece}
    (hgap : ∀ c ∈ gap, IsSpace c) (hcut : MaximalMunch rest pieces) :
    MaximalMunch (gap ++ rest) (gapPieces gap ++ pieces) := by
  induction gap with
  | nil => exact hcut
  | cons c gap ih =>
      obtain ⟨hc, hgap⟩ := List.forall_mem_cons.mp hgap
      exact MaximalMunch.cons_of_reads (reads_of_isSpace hc _) (ih hgap)

theorem tokensFrom_gapPieces (offset line : Nat) (gap : List Char) (pieces : List Piece) :
    tokensFrom offset line (gapPieces gap ++ pieces) =
      tokensFrom (offset + bytes gap) (line + lineFeeds gap) pieces := by
  induction gap generalizing offset line with
  | nil => rfl
  | cons c gap ih =>
      have hlines : lineFeeds (c :: gap) = lineFeeds [c] + lineFeeds gap :=
        lineFeeds_append [c] gap
      rw [bytes_cons, hlines, ← Nat.add_assoc, ← Nat.add_assoc]
      exact ih (offset + c.utf8Size) (line + lineFeeds [c])

/-! ## What is written -/

theorem sense_of_mem_gapPieces {gap : List Char} {piece : Piece} (hmem : piece ∈ gapPieces gap) :
    piece.sense = .trivia := by
  obtain ⟨c, _, rfl⟩ := List.mem_map.mp hmem
  rfl

/-- Nothing that is written is at fault. -/
theorem sense_ne_fault_of_mem_pieces {spaced : List (Token × List Char)} {piece : Piece}
    (hmem : piece ∈ Layout.pieces spaced) (cause : Fault.Cause) : piece.sense ≠ .fault cause := by
  induction spaced with
  | nil => simp [Layout.pieces] at hmem
  | cons pair spaced ih =>
      rcases List.mem_cons.mp hmem with rfl | hmem
      · simp [Token.piece]
      rcases List.mem_append.mp hmem with hgap | hmem
      · simp [sense_of_mem_gapPieces hgap]
      · exact ih hmem

theorem tokensFrom_pieces (before : List Char) (spaced : List (Token × List Char)) :
    tokensFrom (bytes before) (1 + lineFeeds before) (Layout.pieces spaced) =
      Layout.place before spaced := by
  induction spaced generalizing before with
  | nil => rfl
  | cons pair spaced ih =>
      obtain ⟨token, gap⟩ := pair
      have hrest := ih (before ++ (token.lexeme.toList ++ gap))
      rw [bytes_append, bytes_append, lineFeeds_append, lineFeeds_append, ← Nat.add_assoc,
        ← Nat.add_assoc, ← Nat.add_assoc, ← tokensFrom_gapPieces] at hrest
      rw [Layout.place, ← hrest]
      simp [Layout.pieces, tokensFrom, lexemesFrom, lexemeAt, Token.piece, Lexeme.token?]

theorem meaning_place (before : List Char) (spaced : List (Token × List Char)) :
    (Layout.place before spaced).map Token.meaning =
      (spaced.map Prod.fst).map Token.meaning := by
  induction spaced generalizing before with
  | nil => rfl
  | cons pair spaced ih => simp [Layout.place, ih, Token.meaning]

/-- A token stands where its lexeme is written. -/
theorem slice?_of_mem_place {before : List Char} {spaced : List (Token × List Char)}
    {token : Token} (hmem : token ∈ Layout.place before spaced) :
    slice? (before ++ Layout.write spaced) token.span.offset
      (token.span.offset + token.span.length) = some token.lexeme.toList := by
  induction spaced generalizing before with
  | nil => cases hmem
  | cons pair spaced ih =>
      obtain ⟨written, gap⟩ := pair
      rcases List.mem_cons.mp hmem with rfl | hmem
      · rw [Layout.write, ← List.append_assoc]
        exact slice?_append before written.lexeme.toList (gap ++ Layout.write spaced)
      · have hrest := ih hmem
        rw [List.append_assoc, List.append_assoc] at hrest
        exact hrest

/-! ## Tokens in front of gaps -/

/-- A token ends in front of a gap, and at the end of the text. -/
theorem mayReplace_of_isSpace {token : Token} (rest : List Char) {other : List Char}
    (hspace : ∀ c ∈ other.head?, IsSpace c) : MayReplace token.piece rest other := by
  refine mayReplace_behind [] rest (by simp [Token.piece]) ?_
  intro c hc
  refine (hspace c hc).eq_or_mem.imp_right fun hblank => ⟨hblank, ?_⟩
  simp [Token.piece]

/-- The first character behind a token, if there is one, keeps it apart. -/
theorem isSpace_of_mem_head? {pair : Token × List Char} {spaced : List (Token × List Char)}
    (hgap : ∀ c ∈ pair.2, IsSpace c) (hne : ∀ other ∈ (pair :: spaced).dropLast, other.2 ≠ []) :
    ∀ c ∈ (pair.2 ++ Layout.write spaced).head?, IsSpace c := by
  intro c hc
  cases spaced with
  | nil =>
      rw [Layout.write, List.append_nil] at hc
      exact hgap c (List.mem_of_mem_head? hc)
  | cons next spaced =>
      obtain ⟨d, others, hcons⟩ := List.exists_cons_of_ne_nil (hne pair (by simp))
      rw [hcons, List.cons_append] at hc
      obtain rfl := Option.some.inj hc
      exact hgap d (by simp [hcons])

/-- What is written is cut into the tokens and the characters of the gaps. -/
theorem maximalMunch_write {spaced : List (Token × List Char)}
    (hreads : ∀ pair ∈ spaced, ∃ rest, Reads pair.1.piece rest)
    (hspace : ∀ pair ∈ spaced, ∀ c ∈ pair.2, IsSpace c)
    (hne : ∀ pair ∈ spaced.dropLast, pair.2 ≠ []) :
    MaximalMunch (Layout.write spaced) (Layout.pieces spaced) := by
  induction spaced with
  | nil => exact .nil
  | cons pair spaced ih =>
      obtain ⟨⟨rest, hread⟩, hreads⟩ := List.forall_mem_cons.mp hreads
      obtain ⟨hgap, hspace⟩ := List.forall_mem_cons.mp hspace
      have htail : ∀ other ∈ spaced.dropLast, other.2 ≠ [] := by
        intro other hmem
        have hspaced : spaced ≠ [] := by
          rintro rfl
          cases hmem
        refine hne other ?_
        rw [List.dropLast_cons_of_ne_nil hspaced]
        exact List.mem_cons_of_mem _ hmem
      -- wherever the token was read before, its gap may take the place of that rest
      have hreplace : MayReplace pair.1.piece rest (pair.2 ++ Layout.write spaced) :=
        mayReplace_of_isSpace rest (isSpace_of_mem_head? hgap hne)
      exact MaximalMunch.cons_of_reads (hread.replace hreplace)
        (maximalMunch_gapPieces_append hgap (ih hreads hspace htail))

theorem exists_reads_of_mem_inner {source : String} {token : Token}
    (hmem : token ∈ (scan source).inner) : ∃ rest, Reads token.piece rest := by
  obtain ⟨pieces, hcut⟩ := exists_maximalMunch source.toList
  rw [inner_of_cut hcut] at hmem
  obtain ⟨front, piece, back, rfl, hsense, hlexeme, _⟩ := exists_piece_of_mem_tokensFrom hmem
  obtain ⟨rest, _, hlongest, _⟩ := hcut.of_append.exists_rest
  have hpiece : token.piece = piece := by
    rw [Token.piece, hlexeme, String.toList_ofList, ← hsense]
  rw [hpiece]
  exact ⟨rest, isLongest_iff_reads.mp hlongest⟩

/-- **Tokens written out in any layout are scanned to the same tokens**, each of
them where it was written, and without a fault. -/
theorem scan_layout (source : String) (layout : Layout (scan source).inner) :
    scan (.ofList layout.text) =
      ⟨layout.placed ++ [.eof (1 + lineFeeds layout.text) (bytes layout.text)], []⟩ ∧
    layout.placed.map Token.meaning = (scan source).inner.map Token.meaning ∧
    ∀ token ∈ layout.placed,
      slice? layout.text token.span.offset (token.span.offset + token.span.length) =
        some token.lexeme.toList := by
  have hreads : ∀ pair ∈ layout.spaced, ∃ rest, Reads pair.1.piece rest := by
    intro pair hmem
    have htoken : pair.1 ∈ (scan source).inner := by
      rw [← layout.tokens_eq]
      exact List.mem_map_of_mem hmem
    exact exists_reads_of_mem_inner htoken
  have hcut : MaximalMunch (String.ofList layout.text).toList
      (gapPieces layout.lead ++ Layout.pieces layout.spaced) := by
    rw [String.toList_ofList]
    exact maximalMunch_gapPieces_append layout.lead_space
      (maximalMunch_write hreads layout.gap_space layout.gap_ne_nil)
  have hfaults : faultsFrom 0 1 (gapPieces layout.lead ++ Layout.pieces layout.spaced) = [] := by
    refine faultsFrom_eq_nil (fun piece hmem cause => ?_) 0 1
    rcases List.mem_append.mp hmem with hlead | hmem
    · simp [sense_of_mem_gapPieces hlead]
    · exact sense_ne_fault_of_mem_pieces hmem cause
  refine ⟨?_, ?_, fun token hmem => slice?_of_mem_place hmem⟩
  · rw [scan_of_cut hcut, hfaults, tokensFrom_gapPieces, String.toList_ofList, Nat.zero_add,
      tokensFrom_pieces, Layout.placed]
  · rw [Layout.placed, meaning_place, layout.tokens_eq]

/-- Two slashes on two lines, which next to each other would be a comment. -/
theorem scan_layout_slashes :
    scan "/\n/" =
      ⟨[⟨.slash, "/", none, 1, ⟨0, 1⟩⟩, ⟨.slash, "/", none, 2, ⟨2, 1⟩⟩, .eof 2 3], []⟩ := by
  have hinner : (scan "/ /").inner =
      [⟨.slash, "/", none, 1, ⟨0, 1⟩⟩, ⟨.slash, "/", none, 1, ⟨2, 1⟩⟩] := by
    with_unfolding_all rfl
  exact (scan_layout "/ /"
    { lead := []
      spaced :=
        [(⟨.slash, "/", none, 1, ⟨0, 1⟩⟩, ['\n']), (⟨.slash, "/", none, 1, ⟨2, 1⟩⟩, [])]
      tokens_eq := hinner.symm
      lead_space := by simp
      gap_space := by simp [IsSpace]
      gap_ne_nil := by simp }).1

end LoxTokens
