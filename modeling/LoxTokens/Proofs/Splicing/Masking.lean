import LoxTokens.Proofs.Positions.Encoding
import LoxTokens.Proofs.Positions.Order
import LoxTokens.Proofs.Splicing.Respacing

/-!
# Masking all but the tokens

The bytes outside the tokens only keep the tokens apart and count lines.  So
they may all be blanked, whatever they were, as long as the line feeds among
them stay: a scan then finds the same tokens in the same places, and nothing at
fault any more.

```text
a = "x"; // "y        a = "x";
b é 1 "z              b    1
```

The text is masked byte by byte.  As a token takes all bytes of its characters,
a character is either kept or blanked as a whole, and what comes out is a text
again: every piece that is no token has turned into blanks and line feeds.
-/

namespace LoxTokens

open Lexicon Piece Text

/-! ## Masked bytes -/

/-- Whether a byte belongs to a stretch. -/
def Span.covers (span : Span) (offset : Nat) : Bool :=
  span.offset ≤ offset && offset < span.stop

/-- A blank in place of every byte but a line feed. -/
def blankByte (byte : UInt8) : UInt8 := if byte = '\n'.toUInt8 then byte else ' '.toUInt8

/-- A byte at some offset, blanked unless one of some stretches covers it. -/
def maskByte (spans : List Span) (offset : Nat) (byte : UInt8) : UInt8 :=
  if spans.any fun span => span.covers offset then byte else blankByte byte

/-- The bytes of a text, blanked outside of its tokens. -/
def maskedBytes (source : String) : List UInt8 :=
  source.toUTF8.data.toList.mapIdx (maskByte ((scan source).inner.map Token.span))

/-! ## Blanked characters -/

namespace Text

/-- As many blanks as a character has bytes, or a line feed for itself. -/
def blankedChar (c : Char) : List Char := if c = '\n' then ['\n'] else .replicate c.utf8Size ' '

def blanked (text : List Char) : List Char := text.flatMap blankedChar

theorem blanked_cons (c : Char) (text : List Char) :
    blanked (c :: text) = blankedChar c ++ blanked text := rfl

theorem isSpace_of_mem_blanked {text : List Char} {c : Char} (hmem : c ∈ blanked text) :
    IsSpace c := by
  obtain ⟨d, _, hc⟩ := List.mem_flatMap.mp hmem
  unfold blankedChar at hc
  split at hc
  · simp [List.mem_singleton.mp hc, IsSpace]
  · simp [(List.mem_replicate.mp hc).2, IsSpace]

theorem bytes_replicate_blank (count : Nat) : bytes (.replicate count ' ') = count := by
  induction count with
  | zero => rfl
  | succ count ih =>
      rw [List.replicate_succ, bytes_cons, ih, Nat.add_comm]
      rfl

theorem bytes_blankedChar (c : Char) : bytes (blankedChar c) = c.utf8Size := by
  unfold blankedChar
  split
  · next hfeed =>
    rw [hfeed]
    rfl
  · exact bytes_replicate_blank _

theorem lineFeeds_blankedChar (c : Char) : lineFeeds (blankedChar c) = lineFeeds [c] := by
  unfold blankedChar
  split
  · next hfeed => rw [hfeed]
  · next hother =>
    have hnone : '\n' ∉ List.replicate c.utf8Size ' ' := by simp
    rw [Lexeme.lineFeeds_eq_zero hnone, Lexeme.lineFeeds_eq_zero (by simp [Ne.symm hother])]

theorem bytes_blanked (text : List Char) : bytes (blanked text) = bytes text := by
  induction text with
  | nil => rfl
  | cons c text ih =>
      rw [blanked_cons, bytes_append, bytes_blankedChar, ih, bytes_cons]

theorem lineFeeds_blanked (text : List Char) : lineFeeds (blanked text) = lineFeeds text := by
  induction text with
  | nil => rfl
  | cons c text ih =>
      rw [blanked_cons, lineFeeds_append, lineFeeds_blankedChar, ih, ← lineFeeds_append]
      rfl

theorem blanked_ne_nil {text : List Char} (hne : text ≠ []) : blanked text ≠ [] := by
  intro hnil
  have hsize := bytes_blanked text
  have hpositive := bytes_pos hne
  rw [hnil, bytes_nil] at hsize
  omega

end Text

/-! ## Masked pieces -/

namespace Piece

/-- Whether a piece means a token. -/
def isToken (piece : Piece) : Bool :=
  match piece.sense with
  | .token _ _ => true
  | _ => false

/-- A piece after masking: a token stays, and all else falls into blanks. -/
def masked (piece : Piece) : List Piece :=
  if piece.isToken then [piece] else gapPieces (blanked piece.text)

theorem flatten_gapPieces (gap : List Char) : flatten (gapPieces gap) = gap := by
  induction gap with
  | nil => rfl
  | cons c gap ih => exact congrArg (c :: ·) ih

theorem flatten_masked_of_isToken {piece : Piece} (htoken : piece.isToken = true) :
    flatten piece.masked = piece.text := by
  rw [masked, if_pos htoken, flatten_cons, flatten_nil, List.append_nil]

theorem flatten_masked_of_not_isToken {piece : Piece} (htoken : ¬ piece.isToken = true) :
    flatten piece.masked = blanked piece.text := by
  rw [masked, if_neg htoken, flatten_gapPieces]

theorem tokensFrom_cons_of_not_isToken {piece : Piece} (htoken : ¬ piece.isToken = true)
    (offset line : Nat) (pieces : List Piece) :
    tokensFrom offset line (piece :: pieces) =
      tokensFrom (offset + bytes piece.text) (line + lineFeeds piece.text) pieces := by
  obtain ⟨text, sense⟩ := piece
  cases sense with
  | token kind literal => exact absurd rfl htoken
  | trivia => rfl
  | fault cause => rfl

end Piece

/-- All pieces of a text after masking. -/
def maskedPieces (pieces : List Piece) : List Piece := pieces.flatMap Piece.masked

theorem maskedPieces_cons (piece : Piece) (pieces : List Piece) :
    maskedPieces (piece :: pieces) = piece.masked ++ maskedPieces pieces := rfl

/-- Masking changes nothing up to some point, where a blank or a line feed
stands. -/
theorem exists_common {pieces : List Piece} (hne : ∀ piece ∈ pieces, piece.text ≠ []) :
    ∃ common rest other, flatten pieces = common ++ rest ∧
      flatten (maskedPieces pieces) = common ++ other ∧ ∀ c ∈ other.head?, IsSpace c := by
  induction pieces with
  | nil => exact ⟨[], [], [], rfl, rfl, by simp⟩
  | cons piece pieces ih =>
      obtain ⟨hpiece, hne⟩ := List.forall_mem_cons.mp hne
      by_cases htoken : piece.isToken = true
      · obtain ⟨common, rest, other, hflat, hmasked, hspace⟩ := ih hne
        refine ⟨piece.text ++ common, rest, other, ?_, ?_, hspace⟩
        · rw [flatten_cons, hflat, List.append_assoc]
        · rw [maskedPieces_cons, flatten_append, flatten_masked_of_isToken htoken, hmasked,
            List.append_assoc]
      · refine ⟨[], flatten (piece :: pieces), flatten (maskedPieces (piece :: pieces)), rfl, rfl,
          ?_⟩
        rw [maskedPieces_cons, flatten_append, flatten_masked_of_not_isToken htoken]
        intro c hc
        obtain ⟨d, others, hblanked⟩ := List.exists_cons_of_ne_nil (blanked_ne_nil hpiece)
        rw [hblanked] at hc
        obtain rfl : d = c := Option.some.inj hc
        exact isSpace_of_mem_blanked (hblanked ▸ List.mem_cons_self)

/-- A token ends where it did, whatever of the text behind it is masked. -/
theorem Lexicon.Reads.mask {piece : Piece} {pieces : List Piece}
    (hread : Reads piece (flatten pieces)) (htoken : piece.isToken = true)
    (hne : ∀ other ∈ pieces, other.text ≠ []) : Reads piece (flatten (maskedPieces pieces)) := by
  obtain ⟨common, rest, other, hflat, hmasked, hspace⟩ := exists_common hne
  obtain ⟨text, sense⟩ := piece
  have hsense : sense ≠ .trivia ∧ sense ≠ .fault .openString := by
    constructor <;> rintro rfl <;> cases htoken
  rw [hflat] at hread
  rw [hmasked]
  refine hread.replace (mayReplace_behind common rest hsense.2 ?_)
  intro c hc
  exact (hspace c hc).eq_or_mem.imp_right fun hblank => ⟨hblank, hsense.1⟩

theorem Lexicon.MaximalMunch.mask {text : List Char} {pieces : List Piece}
    (hcut : MaximalMunch text pieces) :
    MaximalMunch (flatten (maskedPieces pieces)) (maskedPieces pieces) := by
  induction hcut with
  | nil => exact .nil
  | @cons piece rest pieces hlongest hcut ih =>
      rw [maskedPieces_cons, flatten_append]
      by_cases htoken : piece.isToken = true
      · have hread := isLongest_iff_reads.mp hlongest
        rw [← hcut.flatten_eq] at hread
        rw [flatten_masked_of_isToken htoken, masked, if_pos htoken]
        exact .cons_of_reads (hread.mask htoken hcut.text_ne_nil) ih
      · rw [flatten_masked_of_not_isToken htoken, masked, if_neg htoken]
        exact maximalMunch_gapPieces_append (fun c => isSpace_of_mem_blanked) ih

/-! ## What a scan finds in the masked pieces -/

theorem tokensFrom_maskedPieces (offset line : Nat) (pieces : List Piece) :
    tokensFrom offset line (maskedPieces pieces) = tokensFrom offset line pieces := by
  induction pieces generalizing offset line with
  | nil => rfl
  | cons piece pieces ih =>
      rw [maskedPieces_cons, masked]
      by_cases htoken : piece.isToken = true
      · rw [if_pos htoken, tokensFrom_append, ih, ← tokensFrom_append]
        rfl
      · rw [if_neg htoken, tokensFrom_gapPieces, bytes_blanked, lineFeeds_blanked, ih,
          tokensFrom_cons_of_not_isToken htoken]

theorem faultsFrom_maskedPieces (offset line : Nat) (pieces : List Piece) :
    faultsFrom offset line (maskedPieces pieces) = [] := by
  refine faultsFrom_eq_nil (fun piece hmem cause hsense => ?_) offset line
  obtain ⟨old, _, hpiece⟩ := List.mem_flatMap.mp hmem
  unfold masked at hpiece
  split at hpiece
  · next htoken =>
    rw [← List.mem_singleton.mp hpiece, isToken, hsense] at htoken
    cases htoken
  · rw [sense_of_mem_gapPieces hpiece] at hsense
    cases hsense

/-- What adds up over a text, and blanking leaves alone, masking leaves alone. -/
theorem measure_maskedPieces {measure : List Char → Nat}
    (happend : ∀ front back, measure (front ++ back) = measure front + measure back)
    (hblanked : ∀ text, measure (blanked text) = measure text) (pieces : List Piece) :
    measure (flatten (maskedPieces pieces)) = measure (flatten pieces) := by
  induction pieces with
  | nil => rfl
  | cons piece pieces ih =>
      rw [maskedPieces_cons, flatten_append, happend, ih, flatten_cons, happend]
      by_cases htoken : piece.isToken = true
      · rw [flatten_masked_of_isToken htoken]
      · rw [flatten_masked_of_not_isToken htoken, hblanked]

theorem lineFeeds_maskedPieces (pieces : List Piece) :
    lineFeeds (flatten (maskedPieces pieces)) = lineFeeds (flatten pieces) :=
  measure_maskedPieces lineFeeds_append lineFeeds_blanked pieces

theorem bytes_maskedPieces (pieces : List Piece) :
    bytes (flatten (maskedPieces pieces)) = bytes (flatten pieces) :=
  measure_maskedPieces bytes_append bytes_blanked pieces

/-! ## The bytes of blanked texts -/

namespace Text

theorem map_blankByte_utf8EncodeChar (c : Char) :
    (String.utf8EncodeChar c).map blankByte = utf8 (blankedChar c) := by
  unfold blankedChar
  split
  · next hfeed =>
    rw [hfeed]
    rfl
  · next hother =>
    have hblank : ∀ byte ∈ String.utf8EncodeChar c, blankByte byte = ' '.toUInt8 := by
      intro byte hmem
      refine if_neg ?_
      rintro rfl
      exact hother (eq_lineFeed_of_mem_utf8EncodeChar hmem)
    have hblanks : utf8 (.replicate c.utf8Size ' ') = .replicate c.utf8Size ' '.toUInt8 :=
      List.flatMap_replicate.trans List.flatten_replicate_singleton
    rw [List.map_eq_replicate_iff.mpr hblank, String.length_utf8EncodeChar, hblanks]

theorem map_blankByte_utf8 (text : List Char) :
    (utf8 text).map blankByte = utf8 (blanked text) := by
  induction text with
  | nil => rfl
  | cons c text ih =>
      rw [utf8_cons, blanked_cons, List.map_append, utf8_append, ih, map_blankByte_utf8EncodeChar]

end Text

/-! ## Masked bytes are those of the masked pieces -/

theorem Span.covers_iff {span : Span} {offset : Nat} :
    span.covers offset = true ↔ span.offset ≤ offset ∧ offset < span.stop := by
  simp [covers]

section

variable {front back : List Piece} {piece : Piece} {index : Nat}

theorem covers_of_isToken (htoken : piece.isToken = true) (hindex : index < bytes piece.text) :
    (((tokensFrom 0 1 (front ++ piece :: back)).map Token.span).any fun span =>
      span.covers (bytes (flatten front) + index)) = true := by
  obtain ⟨text, sense⟩ := piece
  cases sense with
  | token kind literal =>
      refine List.any_eq_true.mpr ⟨⟨0 + bytes (flatten front), bytes text⟩, ?_, ?_⟩
      · rw [tokensFrom_append, List.map_append]
        exact List.mem_append_right _ List.mem_cons_self
      · rw [Span.covers_iff, Span.stop]
        dsimp only at hindex ⊢
        omega
  | trivia => cases htoken
  | fault cause => cases htoken

theorem not_covers_of_not_isToken (htoken : ¬ piece.isToken = true)
    (hindex : index < bytes piece.text) :
    ¬ (((tokensFrom 0 1 (front ++ piece :: back)).map Token.span).any fun span =>
      span.covers (bytes (flatten front) + index)) = true := by
  intro hany
  obtain ⟨span, hspan, hcovers⟩ := List.any_eq_true.mp hany
  obtain ⟨token, hmem, rfl⟩ := List.mem_map.mp hspan
  rw [Span.covers_iff] at hcovers
  rw [tokensFrom_append, tokensFrom_cons_of_not_isToken htoken] at hmem
  -- the token ends in front of the piece or begins behind it
  rcases List.mem_append.mp hmem with hbefore | hbehind
  · have hbounds := bounds_of_mem_tokensFrom hbefore
    omega
  · have hbounds := bounds_of_mem_tokensFrom hbehind
    omega

theorem mapIdx_maskByte_text (front back : List Piece) (piece : Piece) :
    (utf8 piece.text).mapIdx (fun index => maskByte
        ((tokensFrom 0 1 (front ++ piece :: back)).map Token.span)
        (bytes (flatten front) + index)) =
      utf8 (flatten piece.masked) := by
  have hlength := length_utf8 piece.text
  by_cases htoken : piece.isToken = true
  · rw [flatten_masked_of_isToken htoken]
    refine List.ext_getElem (by simp) fun index _ hindex => ?_
    rw [List.getElem_mapIdx]
    exact if_pos (covers_of_isToken htoken (hlength ▸ hindex))
  · rw [flatten_masked_of_not_isToken htoken, ← map_blankByte_utf8]
    refine List.ext_getElem (by simp) fun index hindex _ => ?_
    rw [List.length_mapIdx, hlength] at hindex
    rw [List.getElem_mapIdx, List.getElem_map]
    exact if_neg (not_covers_of_not_isToken htoken hindex)

theorem mapIdx_maskByte_flatten (front back : List Piece) :
    (utf8 (flatten back)).mapIdx (fun index => maskByte
        ((tokensFrom 0 1 (front ++ back)).map Token.span) (bytes (flatten front) + index)) =
      utf8 (flatten (maskedPieces back)) := by
  induction back generalizing front with
  | nil => rfl
  | cons piece back ih =>
      have hrest := ih (front ++ [piece])
      simp only [List.append_assoc, List.singleton_append, flatten_append, flatten_cons,
        flatten_nil, List.append_nil, bytes_append] at hrest
      rw [flatten_cons, utf8_append, List.mapIdx_append, mapIdx_maskByte_text, length_utf8,
        maskedPieces_cons, flatten_append, utf8_append, ← hrest]
      simp only [Nat.add_assoc, Nat.add_comm (bytes piece.text)]

end

/-- **Only tokens and line feeds count.**  With every other byte of a text
blanked, what is left is a text, and a scan finds the same tokens in it, in the
same places and with the same end, and nothing at fault. -/
theorem scan_masked (source : String) :
    ∃ masked : String, masked.toUTF8.data.toList = maskedBytes source ∧
      scan masked = ⟨(scan source).tokens, []⟩ := by
  obtain ⟨pieces, hcut⟩ := exists_maximalMunch source.toList
  have hmask : MaximalMunch (String.ofList (flatten (maskedPieces pieces))).toList
      (maskedPieces pieces) := by
    rw [String.toList_ofList]
    exact hcut.mask
  have hsource : source = .ofList (flatten pieces) := by
    rw [hcut.flatten_eq, String.ofList_toList]
  refine ⟨.ofList (flatten (maskedPieces pieces)), ?_, ?_⟩
  · have hbytes := mapIdx_maskByte_flatten [] pieces
    simp only [List.nil_append, flatten_nil, bytes_nil, Nat.zero_add] at hbytes
    rw [toList_toUTF8_ofList, maskedBytes, inner_of_cut hcut, ← hbytes]
    conv => rhs; rw [hsource, toList_toUTF8_ofList]
  · rw [scan_of_cut hmask, scan_of_cut hcut, tokensFrom_maskedPieces, faultsFrom_maskedPieces,
      String.toList_ofList, lineFeeds_maskedPieces, bytes_maskedPieces, hcut.flatten_eq]

/-- A character at fault leaves as many blanks as it has bytes. -/
example : maskedBytes "aé/\n\"" = "a  /\n ".toUTF8.data.toList := by decide +kernel

end LoxTokens
