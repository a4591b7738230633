import LoxTokens.Proofs.Lexicon.Scanning
import LoxTokens.Proofs.Positions.Order
import LoxTokens.Proofs.Splicing.Neighbours
import LoxTokens.Text.Slice

/-!
# Scanning a part of a text

A scan carries nothing from one lexeme to the next but its place in the text.
So a part of a text that is cut out between two lexemes is scanned by itself as
it is scanned within the text, only that it begins at the first byte of the
first line.

Where the part ends matters as well, since the last lexeme of it was read with
a look at what followed.  This is `MaximalMunch.front`: with less behind it a
piece ends where it did.
-/

namespace LoxTokens

open Lexicon Piece Text

/-! ## Boundaries -/

/-- The cursors at which a scan of a text stands between lexemes. -/
inductive Reached (text : List Char) : Cursor → Prop where
  | start : Reached text (.atStart text)
  | next {cursor lexeme behind} : Reached text cursor →
      Lexeme.next? cursor = some (lexeme, behind) → Reached text behind

/-- A boundary of a text is an offset at which a scan begins a lexeme, or the
end of the text. -/
def IsBoundary (text : List Char) (offset : Nat) : Prop :=
  (∃ cursor lexeme behind, Reached text cursor ∧
    Lexeme.next? cursor = some (lexeme, behind) ∧ cursor.offset = offset) ∨
  offset = bytes text

variable {text : List Char} {pieces : List Piece}

/-- Every observed scan passes through the cursors that are reached. -/
theorem Reached.exists_run {cursor : Cursor} (hreached : Reached text cursor) {σ : Type}
    (observe : Observer σ) (initial : σ) :
    ∃ progress : Progress σ, progress.cursor = cursor ∧
      (Progress.atStart text initial).run observe = progress.run observe := by
  induction hreached with
  | start => exact ⟨.atStart text initial, rfl, rfl⟩
  | @next _ lexeme behind _ hnext ih =>
      obtain ⟨progress, rfl, hrun⟩ := ih
      refine ⟨progress.absorb observe lexeme behind, progress.absorb_cursor observe _ _, ?_⟩
      rw [hrun, Progress.run_of_next?_eq_some hnext]

theorem Reached.exists_front {cursor : Cursor} (hreached : Reached text cursor)
    (hcut : MaximalMunch text pieces) :
    ∃ front back, pieces = front ++ back ∧ cursor.offset = bytes (flatten front) ∧
      cursor.unread = flatten back ∧ cursor.line = 1 + lineFeeds (flatten front) := by
  induction hreached with
  | start => exact ⟨[], pieces, rfl, rfl, hcut.flatten_eq.symm, rfl⟩
  | @next cursor _ _ _ hnext ih =>
      obtain ⟨front, back, rfl, hoffset, hunread, hline⟩ := ih
      cases back with
      | nil => rw [Lexeme.next?_of_unread_eq_nil hunread] at hnext; cases hnext
      | cons piece back =>
          -- one step moves one piece from the back to the front
          obtain ⟨rest, hrest, hlongest, _⟩ := hcut.of_append.exists_rest
          rw [hrest] at hunread
          rw [Lexeme.next?_of_reads (isLongest_iff_reads.mp hlongest) hunread] at hnext
          cases hnext
          refine ⟨front ++ [piece], back, by simp, ?_, ?_, ?_⟩
          · simp [Cursor.behind_offset, hoffset]
          · rw [Cursor.behind_unread]
            exact (List.append_cancel_left hrest).symm
          · simp [Cursor.behind_line, hline, Nat.add_assoc]

/-- Boundaries lie between pieces. -/
theorem IsBoundary.exists_front {offset : Nat} (hboundary : IsBoundary text offset)
    (hcut : MaximalMunch text pieces) :
    ∃ front back, pieces = front ++ back ∧ offset = bytes (flatten front) := by
  rcases hboundary with ⟨cursor, lexeme, behind, hreached, _, rfl⟩ | rfl
  · obtain ⟨front, back, hpieces, hoffset, _⟩ := hreached.exists_front hcut
    exact ⟨front, back, hpieces, hoffset⟩
  · exact ⟨pieces, [], by simp, by rw [hcut.flatten_eq]⟩

/-! ## Offsets of pieces -/

theorem bytes_front_lt {front back : List Piece} {piece : Piece} (hne : piece.text ≠ []) :
    bytes (flatten front) < bytes (flatten (front ++ piece :: back)) := by
  have hpositive := bytes_pos hne
  rw [flatten_append, flatten_cons, bytes_append, bytes_append]
  omega

/-- Two boundaries enclose some of the pieces. -/
theorem exists_part {start stop : Nat} (hcut : MaximalMunch text pieces)
    (hstart : IsBoundary text start) (hstop : IsBoundary text stop) (hle : start ≤ stop) :
    ∃ before part after, pieces = before ++ part ++ after ∧ start = bytes (flatten before) ∧
      stop = bytes (flatten before) + bytes (flatten part) := by
  obtain ⟨before, back, rfl, rfl⟩ := hstart.exists_front hcut
  obtain ⟨front, after, hpieces, rfl⟩ := hstop.exists_front hcut
  rcases List.append_eq_append_iff.mp hpieces with ⟨part, rfl, rfl⟩ | ⟨part, rfl, rfl⟩
  · exact ⟨before, part, after, by simp, rfl, by simp⟩
  · -- the later boundary comes first, so that nothing is between the two
    cases part with
    | nil => exact ⟨front, [], back, by simp, by simp, by simp⟩
    | cons piece part =>
        have hlt : bytes (flatten front) < bytes (flatten (front ++ piece :: part)) :=
          bytes_front_lt (hcut.text_ne_nil piece (by simp))
        exact absurd hle (Nat.not_le.mpr hlt)

/-! ## What begins between two offsets -/

/-- Whether a stretch begins between two offsets, the first one included. -/
def Span.beginsIn (start stop : Nat) (span : Span) : Bool :=
  start ≤ span.offset && span.offset < stop

theorem Span.beginsIn_iff {start stop : Nat} {span : Span} :
    span.beginsIn start stop = true ↔ start ≤ span.offset ∧ span.offset < stop := by
  simp [beginsIn]

theorem filter_beginsIn {α : Type} (spanOf : α → Span) {start stop : Nat}
    {before part after : List α} (hbefore : ∀ x ∈ before, (spanOf x).offset < start)
    (hpart : ∀ x ∈ part, start ≤ (spanOf x).offset ∧ (spanOf x).offset < stop)
    (hafter : ∀ x ∈ after, stop ≤ (spanOf x).offset) :
    (before ++ part ++ after).filter (fun x => (spanOf x).beginsIn start stop) = part := by
  have hnone : before.filter (fun x => (spanOf x).beginsIn start stop) = [] := by
    refine List.filter_eq_nil_iff.mpr fun x hmem => ?_
    have hlt := hbefore x hmem
    rw [Span.beginsIn_iff]
    omega
  have hall : part.filter (fun x => (spanOf x).beginsIn start stop) = part :=
    List.filter_eq_self.mpr fun x hmem => Span.beginsIn_iff.mpr (hpart x hmem)
  have hnoneAfter : after.filter (fun x => (spanOf x).beginsIn start stop) = [] := by
    refine List.filter_eq_nil_iff.mpr fun x hmem => ?_
    have hle := hafter x hmem
    rw [Span.beginsIn_iff]
    omega
  rw [List.filter_append, List.filter_append, hnone, hall, hnoneAfter, List.nil_append,
    List.append_nil]

/-- What begins among some of the pieces comes from these pieces. -/
theorem Piece.KeepsPlaces.filter_beginsIn {α : Type} {pick : Lexeme → Option α}
    {spanOf : α → Span} (hkeeps : KeepsPlaces pick spanOf) {before part after : List Piece}
    (hne : ∀ piece ∈ before ++ part ++ after, piece.text ≠ []) (line : Nat) :
    ((lexemesFrom 0 line (before ++ part ++ after)).filterMap pick).filter (fun found =>
        (spanOf found).beginsIn (bytes (flatten before))
          (bytes (flatten before) + bytes (flatten part))) =
      (lexemesFrom (0 + bytes (flatten before)) (line + lineFeeds (flatten before)) part).filterMap
        pick := by
  rw [List.forall_mem_append, List.forall_mem_append] at hne
  obtain ⟨⟨hbefore, hpart⟩, _⟩ := hne
  rw [lexemesFrom_append, lexemesFrom_append, List.filterMap_append, List.filterMap_append,
    flatten_append, bytes_append]
  refine LoxTokens.filter_beginsIn spanOf ?_ ?_ ?_
  · intro found hmem
    have hlt := hkeeps.offset_lt hbefore hmem
    omega
  · intro found hmem
    have hle := (hkeeps.bounds hmem).1
    have hlt := hkeeps.offset_lt hpart hmem
    omega
  · intro found hmem
    have hle := (hkeeps.bounds hmem).1
    omega

/-- The tokens that begin among some of the pieces, the end of the text left
out. -/
theorem tokens_beginsIn {source : String} {before part after : List Piece}
    (hcut : MaximalMunch source.toList (before ++ part ++ after)) :
    (scan source).tokens.filter (fun token => token.span.beginsIn (bytes (flatten before))
        (bytes (flatten before) + bytes (flatten part))) =
      (tokensFrom 0 1 part).map (.moved (bytes (flatten before)) (lineFeeds (flatten before))) := by
  have hsize := congrArg bytes hcut.flatten_eq
  rw [flatten_append, flatten_append, bytes_append, bytes_append] at hsize
  -- the end of the text begins nowhere in the part
  have hend : [Token.eof (1 + lineFeeds source.toList) (bytes source.toList)].filter (fun token =>
      token.span.beginsIn (bytes (flatten before))
        (bytes (flatten before) + bytes (flatten part))) = [] := by
    refine List.filter_eq_nil_iff.mpr fun last hlast => ?_
    rw [List.mem_singleton.mp hlast, Span.beginsIn_iff]
    simp only [Token.eof]
    omega
  have hinner := keepsPlaces_token?.filter_beginsIn hcut.text_ne_nil 1
  rw [scan_of_cut hcut, List.filter_append, hend, List.append_nil, ← tokensFrom_moved]
  exact hinner

theorem faults_beginsIn {source : String} {before part after : List Piece}
    (hcut : MaximalMunch source.toList (before ++ part ++ after)) :
    (scan source).faults.filter (fun fault => fault.span.beginsIn (bytes (flatten before))
        (bytes (flatten before) + bytes (flatten part))) =
      (faultsFrom 0 1 part).map (.moved (bytes (flatten before)) (lineFeeds (flatten before))) := by
  rw [scan_of_cut hcut, ← faultsFrom_moved]
  exact keepsPlaces_fault?.filter_beginsIn hcut.text_ne_nil 1

/-! ## Parts -/

theorem scan_part {part : List Piece} (hcut : MaximalMunch (flatten part) part) :
    scan (.ofList (flatten part)) =
      ⟨tokensFrom 0 1 part ++
          [.eof (1 + lineFeeds (flatten part)) (bytes (flatten part))],
        faultsFrom 0 1 part⟩ := by
  have hsource : MaximalMunch (String.ofList (flatten part)).toList part := by
    rw [String.toList_ofList]
    exact hcut
  rw [scan_of_cut hsource, String.toList_ofList]

/-- A token is found again, as the only one, in the text of its lexeme. -/
theorem scan_lexeme {source : String} {token : Token} (hmem : token ∈ (scan source).inner) :
    scan token.lexeme =
      ⟨[{ token with line := 1, span := ⟨0, token.span.length⟩ },
          .eof (1 + lineFeeds token.lexeme.toList) token.span.length], []⟩ := by
  obtain ⟨pieces, hcut⟩ := exists_maximalMunch source.toList
  rw [inner_of_cut hcut] at hmem
  obtain ⟨before, piece, after, rfl, hsense, hlexeme, _, hspan⟩ :=
    exists_piece_of_mem_tokensFrom hmem
  have hmiddle : MaximalMunch source.toList (before ++ [piece] ++ after) := by
    rw [List.append_assoc]
    exact hcut
  have hscan := scan_part hmiddle.middle
  rw [flatten_cons, flatten_nil, List.append_nil, ← hlexeme] at hscan
  rw [hscan, hlexeme, hspan, String.toList_ofList]
  simp [tokensFrom, faultsFrom, lexemesFrom, lexemeAt, hsense, Lexeme.token?, Lexeme.fault?]

/-- **A part of a text is scanned as it is within the text.**  Between two
boundaries, scanning the part by itself finds the tokens and the faults that
begin there, with the bytes and the lines before the part taken off, and then
the end of the part.  In particular the lexeme of a token is scanned to that
token again. -/
theorem scan_between_boundaries (source : String) :
    (∀ start stop, IsBoundary source.toList start → IsBoundary source.toList stop →
      start ≤ stop →
      ∃ before part tokens faults,
        firstBytes? source.toList start = some before ∧
        slice? source.toList start stop = some part ∧
        scan (.ofList part) =
          ⟨tokens ++ [.eof (1 + lineFeeds part) (stop - start)], faults⟩ ∧
        (scan source).tokens.filter (fun token => token.span.beginsIn start stop) =
          tokens.map (.moved start (lineFeeds before)) ∧
        (scan source).faults.filter (fun fault => fault.span.beginsIn start stop) =
          faults.map (.moved start (lineFeeds before))) ∧
    ∀ token ∈ (scan source).inner,
      scan token.lexeme =
        ⟨[{ token with line := 1, span := ⟨0, token.span.length⟩ },
            .eof (1 + lineFeeds token.lexeme.toList) token.span.length], []⟩ := by
  refine ⟨?_, fun token hmem => scan_lexeme hmem⟩
  intro start stop hstart hstop hle
  obtain ⟨pieces, hcut⟩ := exists_maximalMunch source.toList
  obtain ⟨before, part, after, rfl, rfl, rfl⟩ := exists_part hcut hstart hstop hle
  have hsource : source.toList = flatten before ++ flatten part ++ flatten after := by
    rw [← hcut.flatten_eq, flatten_append, flatten_append]
  refine ⟨flatten before, flatten part, tokensFrom 0 1 part, faultsFrom 0 1 part, ?_, ?_, ?_,
    tokens_beginsIn hcut, faults_beginsIn hcut⟩
  · rw [hsource, List.append_assoc, firstBytes?_append]
  · rw [hsource, slice?_append]
  · rw [scan_part hcut.middle, Nat.add_sub_cancel_left]

/-- The mark in front of a name, behind which the scan looked for `=`. -/
theorem scan_between_boundaries_bang :
    (∃ tokens faults,
      scan "!" = ⟨tokens ++ [.eof 1 1], faults⟩ ∧
      (scan "\n!x").tokens.filter (fun token => token.span.beginsIn 1 2) =
        tokens.map (.moved 1 1) ∧
      (scan "\n!x").faults.filter (fun fault => fault.span.beginsIn 1 2) =
        faults.map (.moved 1 1)) ∧
    scan "x" = ⟨[⟨.identifier, "x", none, 1, ⟨0, 1⟩⟩, .eof 1 1], []⟩ := by
  have hstart : IsBoundary "\n!x".toList 1 := Or.inl ⟨_, _, _, .next .start rfl, rfl, rfl⟩
  have hstop : IsBoundary "\n!x".toList 2 :=
    Or.inl ⟨_, _, _, .next (.next .start rfl) rfl, rfl, rfl⟩
  have hmem : (⟨.identifier, "x", none, 2, ⟨2, 1⟩⟩ : Token) ∈ (scan "\n!x").inner :=
    List.mem_of_getElem? (i := 1) (by with_unfolding_all rfl)
  obtain ⟨before, part, tokens, faults, hbefore, hpart, hscan, htokens, hfaults⟩ :=
    (scan_between_boundaries "\n!x").1 1 2 hstart hstop (by decide)
  cases hbefore
  cases hpart
  exact ⟨⟨tokens, faults, hscan, htokens, hfaults⟩, (scan_between_boundaries "\n!x").2 _ hmem⟩

end LoxTokens
