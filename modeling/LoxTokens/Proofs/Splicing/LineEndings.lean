import LoxTokens.Proofs.Positions.Order
import LoxTokens.Proofs.Splicing.Respacing
import LoxTokens.Text.Position

/-!
# Other line ends

Lines may end with a line feed alone or with a carriage return in front of it.
A text whose lines end in the one way is scanned as the same text with lines
that end in the other way: the same tokens and the same faults come up on the
same lines, and only what lies behind a line end moves.

The carriage returns that are put in meet four kinds of lexemes.

* In front of a line feed between lexemes the return is a blank of its own.
* A comment takes the return in, since only the line feed ends it.
* A string takes it into its value, whether it is closed or stays open.
* Every other lexeme ends in front of the return as it did in front of the line
  feed.

So the pieces of the new text are those of the old one, each with its returns,
but for the two cases in which trivia are cut at another place.  This is
`MaximalMunch.exists_withReturns`; where everything stands is left to
`lexemesFrom_withReturns`.
-/

namespace LoxTokens

open Lexicon Piece Text

/-! ## Texts with carriage returns -/

namespace Text

/-- A text with a carriage return put in front of every line feed. -/
def withReturns (text : List Char) : List Char :=
  text.flatMap fun c => if c = '\n' then ['\r', '\n'] else [c]

variable {text rest : List Char}

@[simp] theorem withReturns_nil : withReturns [] = [] := rfl

@[simp] theorem withReturns_lineFeed (text : List Char) :
    withReturns ('\n' :: text) = '\r' :: '\n' :: withReturns text := rfl

theorem withReturns_cons_of_ne {c : Char} (hc : c ≠ '\n') (text : List Char) :
    withReturns (c :: text) = c :: withReturns text := by
  unfold withReturns
  rw [List.flatMap_cons, if_neg hc, List.singleton_append]

@[simp] theorem withReturns_append (front back : List Char) :
    withReturns (front ++ back) = withReturns front ++ withReturns back :=
  List.flatMap_append

theorem withReturns_of_notMem (habsent : '\n' ∉ text) : withReturns text = text := by
  induction text with
  | nil => rfl
  | cons c text ih =>
      rw [List.mem_cons, not_or] at habsent
      rw [withReturns_cons_of_ne (Ne.symm habsent.1), ih habsent.2]

theorem notMem_withReturns {c : Char} (hreturn : c ≠ '\r') (habsent : c ∉ text) :
    c ∉ withReturns text := by
  intro hmem
  obtain ⟨d, hd, hc⟩ := List.mem_flatMap.mp hmem
  split at hc
  · next hfeed =>
    rcases List.mem_cons.mp hc with rfl | hc
    · exact hreturn rfl
    · exact habsent (List.mem_singleton.mp hc ▸ hfeed ▸ hd)
  · exact habsent (List.mem_singleton.mp hc ▸ hd)

theorem lineFeeds_withReturns (text : List Char) :
    lineFeeds (withReturns text) = lineFeeds text := by
  induction text with
  | nil => rfl
  | cons c text ih =>
      by_cases hc : c = '\n'
      · rw [hc, withReturns_lineFeed]
        simpa [lineFeeds] using ih
      · rw [withReturns_cons_of_ne hc]
        simpa [lineFeeds, List.count_cons] using ih

/-- Each line feed costs one more byte. -/
theorem bytes_withReturns (text : List Char) :
    bytes (withReturns text) = bytes text + lineFeeds text := by
  induction text with
  | nil => rfl
  | cons c text ih =>
      by_cases hc : c = '\n'
      · have hsize : '\r'.utf8Size = 1 := rfl
        have hcount : lineFeeds ('\n' :: text) = lineFeeds text + 1 := by simp [lineFeeds]
        rw [hc, withReturns_lineFeed, bytes_cons, bytes_cons, ih, hcount, hsize, bytes_cons]
        omega
      · have hcount : lineFeeds (c :: text) = lineFeeds text := by simp [lineFeeds, hc]
        rw [withReturns_cons_of_ne hc, bytes_cons, ih, hcount, bytes_cons, Nat.add_assoc]

/-- What comes first is what came first before, or a carriage return. -/
theorem mem_head?_or_eq_return {c : Char} (hc : c ∈ (withReturns rest).head?) :
    c ∈ rest.head? ∨ c = '\r' := by
  cases rest with
  | nil => cases hc
  | cons d rest =>
      by_cases hd : d = '\n'
      · rw [hd, withReturns_lineFeed] at hc
        exact Or.inr (Option.some.inj hc).symm
      · rw [withReturns_cons_of_ne hd] at hc
        exact Or.inl hc

end Text

theorem Lexicon.StartsFraction.of_withReturns {rest : List Char}
    (hfraction : StartsFraction (withReturns rest)) : StartsFraction rest := by
  obtain ⟨hpoint, hdigit⟩ := hfraction
  cases rest with
  | nil => cases hpoint
  | cons c rest =>
      by_cases hc : c = '\n'
      · rw [hc, withReturns_lineFeed] at hpoint
        exact absurd (Option.some.inj hpoint) (by decide)
      · rw [withReturns_cons_of_ne hc] at hpoint hdigit
        refine ⟨hpoint, ?_⟩
        obtain ⟨d, hd, hin⟩ := (Option.any_eq_true _ _).mp hdigit
        rcases mem_head?_or_eq_return hd with hold | rfl
        · exact (Option.any_eq_true _ _).mpr ⟨d, hold, hin⟩
        · exact absurd hin (by decide)

/-! ## What a scan finds in such a text -/

/-- The stretch of a text that a span covers. -/
def Span.textIn (text : List Char) (span : Span) : List Char :=
  (before text span.stop).drop (before text span.offset).length

/-- A span of a text once the text has its returns: it moves by the line feeds
before it and grows by those within it. -/
def Span.withReturns (text : List Char) (span : Span) : Span where
  offset := span.offset + lineFeeds (before text span.offset)
  length := span.length + lineFeeds (span.textIn text)

def Literal.withReturns : Literal → Literal
  | .number value => .number value
  | .string value => .string (.ofList (Text.withReturns value.toList))

/-- A token of a text once the text has its returns. -/
def Token.withReturns (text : List Char) (token : Token) : Token where
  kind := token.kind
  lexeme := .ofList (Text.withReturns token.lexeme.toList)
  literal := token.literal.map Literal.withReturns
  line := token.line
  span := token.span.withReturns text

/-- A fault of a text once the text has its returns. -/
def Fault.withReturns (text : List Char) (fault : Fault) : Fault :=
  { fault with span := fault.span.withReturns text }

def Lexeme.withReturns (text : List Char) : Lexeme → Lexeme
  | .token found => .token (found.withReturns text)
  | .trivia => .trivia
  | .fault found => .fault (found.withReturns text)

def Sense.withReturns : Sense → Sense
  | .token kind literal => .token kind (literal.map Literal.withReturns)
  | .trivia => .trivia
  | .fault cause => .fault cause

def Piece.withReturns (piece : Piece) : Piece :=
  ⟨Text.withReturns piece.text, piece.sense.withReturns⟩

theorem Span.textIn_append (front part back : List Char) :
    Span.textIn (front ++ (part ++ back)) ⟨bytes front, bytes part⟩ = part := by
  have hstop : before (front ++ (part ++ back)) (bytes front + bytes part) = front ++ part := by
    rw [← List.append_assoc, ← bytes_append, before_append]
  rw [textIn, Span.stop, hstop, before_append, List.drop_left]

theorem Span.withReturns_append (front part back : List Char) :
    Span.withReturns (front ++ (part ++ back)) ⟨bytes front, bytes part⟩ =
      ⟨bytes (Text.withReturns front), bytes (Text.withReturns part)⟩ := by
  rw [Span.withReturns, textIn_append, before_append, bytes_withReturns, bytes_withReturns]

namespace Piece

theorem lexemeAt_withReturns (piece : Piece) (front back : List Char) (line : Nat) :
    piece.withReturns.lexemeAt (bytes (Text.withReturns front)) line =
      (piece.lexemeAt (bytes front) line).withReturns (front ++ (piece.text ++ back)) := by
  have hspan := Span.withReturns_append front piece.text back
  obtain ⟨text, sense⟩ := piece
  cases sense with
  | token kind literal =>
      simp [lexemeAt, withReturns, Sense.withReturns, Lexeme.withReturns, Token.withReturns, hspan]
  | trivia => rfl
  | fault cause =>
      simp [lexemeAt, withReturns, Sense.withReturns, Lexeme.withReturns, Fault.withReturns, hspan,
        lineFeeds_withReturns]

/-- Pieces with their returns, behind others that have theirs, are found where
the returns before them have moved them. -/
theorem lexemesFrom_withReturns (front pieces : List Piece) (line : Nat) :
    lexemesFrom (bytes (Text.withReturns (flatten front))) line (pieces.map withReturns) =
      (lexemesFrom (bytes (flatten front)) line pieces).map
        (Lexeme.withReturns (flatten (front ++ pieces))) := by
  induction pieces generalizing front line with
  | nil => rfl
  | cons piece pieces ih =>
      have hrest := ih (front ++ [piece]) (line + lineFeeds piece.text)
      have hpiece := lexemeAt_withReturns piece (flatten front) (flatten pieces) line
      rw [List.append_assoc, List.singleton_append] at hrest
      simp only [flatten_append, flatten_cons, flatten_nil, List.append_nil, withReturns_append,
        bytes_append] at hrest hpiece ⊢
      have hlines : lineFeeds piece.withReturns.text = lineFeeds piece.text :=
        lineFeeds_withReturns piece.text
      rw [List.map_cons, lexemesFrom, lexemesFrom, List.map_cons, hpiece, hlines, ← hrest]
      rfl

/-- What is picked from lexemes with their returns is what is picked before,
with its returns. -/
theorem filterMap_map_withReturns {α : Type} {pick : Lexeme → Option α} {move : α → α}
    {text : List Char} (hpick : ∀ lexeme, pick (Lexeme.withReturns text lexeme) =
      (pick lexeme).map move) (lexemes : List Lexeme) :
    (lexemes.map (Lexeme.withReturns text)).filterMap pick = (lexemes.filterMap pick).map move := by
  rw [List.filterMap_map, List.map_filterMap]
  congr 1
  funext lexeme
  exact hpick lexeme

theorem tokensFrom_map_withReturns (pieces : List Piece) :
    tokensFrom 0 1 (pieces.map withReturns) =
      (tokensFrom 0 1 pieces).map (.withReturns (flatten pieces)) := by
  have hlexemes := lexemesFrom_withReturns [] pieces 1
  simp only [flatten_nil, withReturns_nil, bytes_nil, List.nil_append] at hlexemes
  unfold tokensFrom
  rw [hlexemes]
  refine filterMap_map_withReturns ?_ _
  intro lexeme
  cases lexeme <;> rfl

theorem faultsFrom_map_withReturns (pieces : List Piece) :
    faultsFrom 0 1 (pieces.map withReturns) =
      (faultsFrom 0 1 pieces).map (.withReturns (flatten pieces)) := by
  have hlexemes := lexemesFrom_withReturns [] pieces 1
  simp only [flatten_nil, withReturns_nil, bytes_nil, List.nil_append] at hlexemes
  unfold faultsFrom
  rw [hlexemes]
  refine filterMap_map_withReturns ?_ _
  intro lexeme
  cases lexeme <;> rfl

/-! ## Pieces that only cut trivia in another way -/

/-- The same is found in two lists of pieces, wherever they stand. -/
structure Agree (pieces others : List Piece) : Prop where
  tokens : ∀ offset line, tokensFrom offset line pieces = tokensFrom offset line others
  faults : ∀ offset line, faultsFrom offset line pieces = faultsFrom offset line others

variable {pieces others : List Piece}

theorem Agree.refl (pieces : List Piece) : Agree pieces pieces := ⟨fun _ _ => rfl, fun _ _ => rfl⟩

theorem Agree.trans {third : List Piece} (hfirst : Agree pieces others)
    (hsecond : Agree others third) : Agree pieces third where
  tokens offset line := (hfirst.tokens offset line).trans (hsecond.tokens offset line)
  faults offset line := (hfirst.faults offset line).trans (hsecond.faults offset line)

theorem Agree.cons (piece : Piece) (hagree : Agree pieces others) :
    Agree (piece :: pieces) (piece :: others) where
  tokens offset line := by
    have hrest := hagree.tokens (offset + bytes piece.text) (line + lineFeeds piece.text)
    unfold tokensFrom at hrest ⊢
    rw [lexemesFrom, lexemesFrom, List.filterMap_cons, List.filterMap_cons, hrest]
  faults offset line := by
    have hrest := hagree.faults (offset + bytes piece.text) (line + lineFeeds piece.text)
    unfold faultsFrom at hrest ⊢
    rw [lexemesFrom, lexemesFrom, List.filterMap_cons, List.filterMap_cons, hrest]

theorem Agree.symm (hagree : Agree pieces others) : Agree others pieces where
  tokens offset line := (hagree.tokens offset line).symm
  faults offset line := (hagree.faults offset line).symm

/-- Trivia side by side are as good as in one. -/
theorem agree_trivia (front back : List Char) (pieces : List Piece) :
    Agree (⟨front, .trivia⟩ :: ⟨back, .trivia⟩ :: pieces) (⟨front ++ back, .trivia⟩ :: pieces) where
  tokens offset line := by
    rw [tokensFrom_trivia, tokensFrom_trivia, tokensFrom_trivia, bytes_append, lineFeeds_append,
      Nat.add_assoc, Nat.add_assoc]
  faults offset line := by
    rw [faultsFrom_trivia, faultsFrom_trivia, faultsFrom_trivia, bytes_append, lineFeeds_append,
      Nat.add_assoc, Nat.add_assoc]

end Piece

/-! ## Where lexemes end in such a text -/

namespace Lexicon

variable {piece : Piece} {rest text : List Char}

/-- A piece without line feeds is the same with its returns. -/
theorem withReturns_eq_self_of_reads (hread : Reads piece rest) (hsense : piece.sense ≠ .trivia)
    (hquote : piece.text.head? ≠ some '"') : piece.withReturns = piece := by
  have hsame : piece.sense.withReturns = piece.sense := by
    cases hread with
    | string _ => exact absurd rfl hquote
    | _ => rfl
  have habsent : '\n' ∉ piece.text := by
    cases hkind : piece.sense with
    | token kind literal =>
        intro hmem
        exact not_isSpace_of_reads hread hkind hquote _ hmem (by simp [IsSpace])
    | trivia => exact absurd hkind hsense
    | fault cause =>
        cases hread with
        | openString _ => exact absurd rfl hquote
        | foreign hc =>
            intro hmem
            rw [← List.mem_singleton.mp hmem] at hc
            cases hc
        | _ => cases hkind
  unfold Piece.withReturns
  rw [withReturns_of_notMem habsent, hsame]

/-- A piece that is no trivia is a lexeme again with its returns. -/
theorem Reads.withReturns_text (hread : Reads piece rest) (hsense : piece.sense ≠ .trivia) :
    Reads piece.withReturns rest := by
  by_cases hquote : piece.text.head? = some '"'
  · -- the returns go into the value as they go into the text
    obtain ⟨body, hbody, rfl | rfl⟩ := hread.exists_body hquote
    · have htext : Text.withReturns ('"' :: (body ++ ['"'])) =
          '"' :: (Text.withReturns body ++ ['"']) := by
        rw [withReturns_cons_of_ne (by decide), withReturns_append]
        rfl
      unfold Piece.withReturns Sense.withReturns
      simp only [htext, Option.map_some, Literal.withReturns, String.toList_ofList]
      exact .string (notMem_withReturns (by decide) hbody)
    · obtain rfl := hread.rest_eq_nil rfl
      unfold Piece.withReturns
      rw [withReturns_cons_of_ne (by decide)]
      exact .openString (notMem_withReturns (by decide) hbody)
  · rw [withReturns_eq_self_of_reads hread hsense hquote]
    exact hread

/-- A piece that is no trivia ends in front of a return as it did in front of a
line feed. -/
theorem Reads.withReturns (hread : Reads piece rest) (hsense : piece.sense ≠ .trivia) :
    Reads piece.withReturns (Text.withReturns rest) := by
  have hreplace : MayReplace piece rest (Text.withReturns rest) :=
    { head := by
        intro c hc
        rcases mem_head?_or_eq_return hc with hold | rfl
        · exact Or.inl hold
        · exact Or.inr (Or.inr ⟨by simp, hsense⟩)
      fraction := .of_withReturns
      openString := by
        intro hopen
        rw [hread.rest_eq_nil hopen, withReturns_nil] }
  exact (hread.replace hreplace).withReturns_text hsense

/-- In front of anything a blank is cut off by itself. -/
theorem MaximalMunch.of_blank {c : Char} {pieces : List Piece} (hc : Start.ofChar c = .blank)
    (hcut : MaximalMunch (c :: text) pieces) :
    ∃ back, pieces = ⟨[c], .trivia⟩ :: back ∧ MaximalMunch text back := by
  obtain ⟨back, hback⟩ := exists_maximalMunch text
  have hblank : MaximalMunch (c :: text) (⟨[c], .trivia⟩ :: back) :=
    .cons_of_reads (.blank hc) hback
  exact ⟨back, hblank.unique hcut, hback⟩

/-- Trivia with their returns are trivia again, wherever they are then cut.  In
front of a line end a comment takes the return of the line end in. -/
theorem Reads.exists_cut_withReturns {others : List Piece} (hread : Reads piece rest)
    (hsense : piece.sense = .trivia) (hcut : MaximalMunch (Text.withReturns rest) others) :
    ∃ cut, MaximalMunch (Text.withReturns piece.text ++ Text.withReturns rest) cut ∧
      Agree cut (piece.withReturns :: others) := by
  unfold Piece.withReturns
  cases hread with
  | @comment body _ hbody hrest =>
      have habsent : '\n' ∉ '/' :: '/' :: body := by simp [hbody]
      dsimp only
      rw [withReturns_of_notMem habsent]
      cases rest with
      | nil => exact ⟨_, .cons_of_reads (.comment hbody stops_nil) hcut, .refl _⟩
      | cons c rest =>
          obtain rfl : c = '\n' := by simpa using hrest
          rw [withReturns_lineFeed] at hcut ⊢
          obtain ⟨back, rfl, hback⟩ := hcut.of_blank rfl
          have hreturned : '\n' ∉ body ++ ['\r'] := by simp [hbody]
          refine ⟨⟨'/' :: '/' :: (body ++ ['\r']), .trivia⟩ :: back, ?_, ?_⟩
          · have hcomment := MaximalMunch.cons_of_reads (.comment hreturned (by simp)) hback
            simpa using hcomment
          · exact (agree_trivia ('/' :: '/' :: body) ['\r'] back).symm
  | @blank c _ hc =>
      have hfeed : '\n' ≠ c := by
        rintro rfl
        cases hc
      dsimp only
      rw [withReturns_of_notMem (by simpa using hfeed)]
      exact ⟨_, .cons_of_reads (.blank hc) hcut, .refl _⟩
  | lineFeed =>
      refine ⟨⟨['\r'], .trivia⟩ :: ⟨['\n'], .trivia⟩ :: others, ?_,
        agree_trivia ['\r'] ['\n'] others⟩
      exact .cons_of_reads (.blank rfl) (.cons_of_reads .lineFeed hcut)
  | _ => cases hsense

/-- **The pieces of a text with its returns** are those of the text, each with
its returns, but for trivia that are cut at another place. -/
theorem MaximalMunch.exists_withReturns {pieces : List Piece} (hcut : MaximalMunch text pieces) :
    ∃ others, MaximalMunch (Text.withReturns text) others ∧
      Agree others (pieces.map Piece.withReturns) := by
  induction hcut with
  | nil => exact ⟨[], .nil, .refl []⟩
  | @cons piece rest pieces hlongest _ ih =>
      obtain ⟨others, hothers, hagree⟩ := ih
      have hread := isLongest_iff_reads.mp hlongest
      rw [withReturns_append]
      by_cases hsense : piece.sense = .trivia
      · obtain ⟨cut, hcut, hsame⟩ := hread.exists_cut_withReturns hsense hothers
        exact ⟨cut, hcut, hsame.trans (hagree.cons _)⟩
      · exact ⟨piece.withReturns :: others, .cons_of_reads (hread.withReturns hsense) hothers,
          hagree.cons _⟩

end Lexicon

/-! ## Whole scans -/

/-- Only a string has line feeds in its lexeme. -/
theorem kind_eq_string_of_lineFeed_mem {pieces : List Piece} {text : List Char}
    (hcut : MaximalMunch text pieces) {token : Token} (hmem : token ∈ tokensFrom 0 1 pieces)
    (hfeed : '\n' ∈ token.lexeme.toList) : token.kind = .string := by
  obtain ⟨front, piece, back, rfl, hsense, hlexeme, _⟩ := exists_piece_of_mem_tokensFrom hmem
  obtain ⟨rest, _, hlongest, _⟩ := hcut.of_append.exists_rest
  have hread := isLongest_iff_reads.mp hlongest
  rw [hlexeme, String.toList_ofList] at hfeed
  by_cases hquote : piece.text.head? = some '"'
  · obtain ⟨body, _, rfl | rfl⟩ := hread.exists_body hquote
    · exact (Sense.token.inj hsense).1.symm
    · cases hsense
  · exact absurd (by simp [IsSpace]) (not_isSpace_of_reads hread hsense hquote _ hfeed)

/-- The end of a text moves by all its line feeds. -/
theorem eof_withReturns (line : Nat) (text : List Char) :
    (Token.eof line (bytes text)).withReturns text =
      .eof line (bytes (Text.withReturns text)) := by
  have hspan : Span.withReturns text ⟨bytes text, 0⟩ = ⟨bytes (Text.withReturns text), 0⟩ := by
    simpa using Span.withReturns_append text [] []
  unfold Token.withReturns Token.eof
  simp [hspan]

/-- **Carriage returns in front of the line feeds change no lexeme.**  With them
put in, a scan finds the same tokens and faults on the same lines, the line
feeds in lexemes and string values with returns before them as in the text.
Each offset moves by the line feeds before it and each length grows by those
within it, up to the end of the text.  In a lexeme that is no string there are
none, so that it stays as it is. -/
theorem scan_withReturns (source : String) :
    scan (.ofList (Text.withReturns source.toList)) =
      ⟨(scan source).tokens.map (.withReturns source.toList),
        (scan source).faults.map (.withReturns source.toList)⟩ ∧
    ∀ token ∈ (scan source).tokens, token.kind ≠ .string →
      (token.withReturns source.toList).lexeme = token.lexeme := by
  obtain ⟨pieces, hcut⟩ := exists_maximalMunch source.toList
  constructor
  · obtain ⟨others, hothers, hagree⟩ := hcut.exists_withReturns
    have hreturned :
        MaximalMunch (String.ofList (Text.withReturns source.toList)).toList others := by
      rw [String.toList_ofList]
      exact hothers
    rw [scan_of_cut hreturned, scan_of_cut hcut, hagree.tokens, hagree.faults,
      tokensFrom_map_withReturns, faultsFrom_map_withReturns, String.toList_ofList,
      lineFeeds_withReturns, ← eof_withReturns, hcut.flatten_eq, List.map_append,
      List.map_singleton]
  · intro token hmem hkind
    have habsent : '\n' ∉ token.lexeme.toList := by
      intro hfeed
      rw [scan_of_cut hcut] at hmem
      rcases List.mem_append.mp hmem with hmem | hlast
      · exact hkind (kind_eq_string_of_lineFeed_mem hcut hmem hfeed)
      · rw [List.mem_singleton.mp hlast] at hfeed
        cases hfeed
    unfold Token.withReturns
    rw [withReturns_of_notMem habsent, String.ofList_toList]

/-- A comment and a name in front of a line end, and a string with one in it. -/
theorem scan_withReturns_comment :
    scan "//\r\na\r\n\"\r\n\"" =
      ⟨[⟨.identifier, "a", none, 2, ⟨4, 1⟩⟩,
          ⟨.string, "\"\r\n\"", some (.string "\r\n"), 3, ⟨7, 4⟩⟩, .eof 4 11], []⟩ ∧
      (Token.withReturns "//\na\n\"\n\"".toList ⟨.identifier, "a", none, 2, ⟨3, 1⟩⟩).lexeme =
        "a" := by
  have htext : String.ofList (Text.withReturns "//\na\n\"\n\"".toList) =
      "//\r\na\r\n\"\r\n\"" := by
    decide +kernel
  have hmem : (⟨.identifier, "a", none, 2, ⟨3, 1⟩⟩ : Token) ∈ (scan "//\na\n\"\n\"").tokens :=
    List.mem_of_getElem? (i := 0) (by with_unfolding_all rfl)
  obtain ⟨hscan, hlexemes⟩ := scan_withReturns "//\na\n\"\n\""
  rw [htext] at hscan
  refine ⟨hscan.trans ?_, hlexemes _ hmem (by decide)⟩
  with_unfolding_all rfl

end LoxTokens
