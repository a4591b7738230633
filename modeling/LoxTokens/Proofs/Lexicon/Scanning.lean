import LoxTokens.Proofs.Lexicon.Cut
import LoxTokens.Proofs.Lexicon.Reader
import LoxTokens.Scan

/-!
# A scan finds the pieces of its text

A scan reads lexeme after lexeme, and each of them is the longest piece that
the remaining text begins with.  So a whole scan finds the lexemes of the pieces
into which maximal munch cuts the text, in their order, whoever observes it.

`Covers` says what a stretch of pieces adds to a scan; one step covers one
piece (`covers_absorb`), and the run covers all of them (`covers_run`).
-/

namespace LoxTokens

open Log (Event Signal)
open Lexicon

/-- The tokens that a scan finds in the text itself, all but the one for the
end. -/
def Scan.inner (scan : Scan) : List Token := scan.tokens.filter fun token => token.kind ≠ .eof

/-- What an observer is shown of a lexeme. -/
def Lexeme.signals : Lexeme → List Signal
  | .token found => [.event (.token found)]
  | .trivia => []
  | .fault found => [.event (.fault found), .report found]

/-- What an observer is shown of pieces one behind the other. -/
def Piece.signalsFrom (offset line : Nat) (pieces : List Piece) : List Signal :=
  (lexemesFrom offset line pieces).flatMap Lexeme.signals

theorem Piece.signalsFrom_append (offset line : Nat) (front back : List Piece) :
    signalsFrom offset line (front ++ back) =
      signalsFrom offset line front ++
        signalsFrom (offset + Text.bytes (flatten front))
          (line + Text.lineFeeds (flatten front)) back := by
  simp only [signalsFrom, lexemesFrom_append, List.flatMap_append]

namespace Progress

variable {σ : Type} {observe : Observer σ}

/-! ## What a stretch of pieces adds -/

/-- A scan has gone from one point to another over some pieces. -/
structure Covers (observe : Observer σ) (before after : Progress σ) (pieces : List Piece) :
    Prop where
  offset : after.cursor.offset = before.cursor.offset + Text.bytes (Piece.flatten pieces)
  line : after.cursor.line = before.cursor.line + Text.lineFeeds (Piece.flatten pieces)
  tokens : after.tokens.toList =
    before.tokens.toList ++ Piece.tokensFrom before.cursor.offset before.cursor.line pieces
  faults : after.faults =
    before.faults + (Piece.faultsFrom before.cursor.offset before.cursor.line pieces).length
  observed : after.observed =
    (Piece.signalsFrom before.cursor.offset before.cursor.line pieces).foldl observe
      before.observed

theorem Covers.refl (progress : Progress σ) : Covers observe progress progress [] where
  offset := rfl
  line := rfl
  tokens := (List.append_nil _).symm
  faults := rfl
  observed := rfl

theorem Covers.trans {before between after : Progress σ} {front back : List Piece}
    (hfront : Covers observe before between front) (hback : Covers observe between after back) :
    Covers observe before after (front ++ back) where
  offset := by
    rw [hback.offset, hfront.offset, Piece.flatten_append, Text.bytes_append, Nat.add_assoc]
  line := by
    rw [hback.line, hfront.line, Piece.flatten_append, Text.lineFeeds_append, Nat.add_assoc]
  tokens := by
    rw [hback.tokens, hfront.tokens, hfront.offset, hfront.line, Piece.tokensFrom_append,
      List.append_assoc]
  faults := by
    rw [hback.faults, hfront.faults, hfront.offset, hfront.line, Piece.faultsFrom_append,
      List.length_append, Nat.add_assoc]
  observed := by
    rw [hback.observed, hfront.observed, hfront.offset, hfront.line, Piece.signalsFrom_append,
      List.foldl_append]

/-- One step covers one piece. -/
theorem covers_absorb (progress : Progress σ) (piece : Piece) (rest : List Char) :
    Covers observe progress
      (progress.absorb observe (piece.lexemeAt progress.cursor.offset progress.cursor.line)
        (progress.cursor.behind piece.text rest)) [piece] := by
  obtain ⟨text, sense⟩ := piece
  constructor
  · rw [absorb_cursor, Cursor.behind_offset, Piece.flatten_cons, Piece.flatten_nil,
      List.append_nil]
  · rw [absorb_cursor, Cursor.behind_line, Piece.flatten_cons, Piece.flatten_nil,
      List.append_nil]
  · cases sense <;>
      simp [absorb, Piece.lexemeAt, Piece.tokensFrom, Piece.lexemesFrom, Lexeme.token?]
  · cases sense <;>
      simp [absorb, Piece.lexemeAt, Piece.faultsFrom, Piece.lexemesFrom, Lexeme.fault?]
  · cases sense <;>
      simp [absorb, Piece.lexemeAt, Piece.signalsFrom, Piece.lexemesFrom, Lexeme.signals]

/-- A run covers all the pieces of what is left to read. -/
theorem covers_run {text : List Char} {pieces : List Piece} (hcut : MaximalMunch text pieces)
    {progress : Progress σ} (hunread : progress.cursor.unread = text) :
    Covers observe progress (progress.run observe) pieces := by
  induction hcut generalizing progress with
  | nil =>
      rw [run_of_next?_eq_none (Lexeme.next?_of_unread_eq_nil hunread)]
      exact .refl progress
  | @cons piece rest pieces hlongest hcut ih =>
      -- the first piece of the cut is the one that the next step reads
      have hnext := Lexeme.next?_of_reads (isLongest_iff_reads.mp hlongest) hunread
      rw [run_of_next?_eq_some hnext]
      refine (covers_absorb progress piece rest).trans (ih ?_)
      rw [absorb_cursor, Cursor.behind_unread]

end Progress

/-! ## Whole scans -/

section

variable {source : String} {pieces : List Piece}

/-- What any observed scan finds, and what it shows its observer. -/
theorem scanObserved_of_cut {σ : Type} (observe : Observer σ) (initial : σ)
    (hcut : MaximalMunch source.toList pieces) :
    scanObserved observe initial source =
      (Piece.tokensFrom 0 1 pieces ++
          [.eof (1 + Text.lineFeeds source.toList) (Text.bytes source.toList)],
        observe ((Piece.signalsFrom 0 1 pieces).foldl observe initial)
          (.event (.finished ((Piece.tokensFrom 0 1 pieces).length + 1)
            (Piece.faultsFrom 0 1 pieces).length (1 + Text.lineFeeds source.toList)))) := by
  have hcovers : Progress.Covers observe (Progress.atStart source.toList initial) _ pieces :=
    Progress.covers_run hcut rfl
  obtain ⟨hoffset, hline, htokens, hfaults, hobserved⟩ := hcovers
  have hsize := congrArg List.length htokens
  rw [hcut.flatten_eq] at hoffset hline
  rw [scanObserved, Progress.finish, Array.toList_push, Array.size_push, hoffset, hline, htokens,
    hfaults, hobserved, ← Array.length_toList, hsize]
  simp [Progress.atStart, Cursor.atStart, Cursor.offset]

/-- A sink that keeps all faults keeps those of a lexeme. -/
theorem foldl_collect_lexeme (held : Array Fault) (lexeme : Lexeme) :
    lexeme.signals.foldl Sink.collect.observer held = held ++ lexeme.fault?.toList := by
  cases lexeme <;> simp [Lexeme.signals, Lexeme.fault?, Sink.observer, Sink.collect]

theorem foldl_collect (held : Array Fault) (lexemes : List Lexeme) :
    (lexemes.flatMap Lexeme.signals).foldl Sink.collect.observer held =
      held ++ lexemes.filterMap Lexeme.fault? := by
  induction lexemes generalizing held with
  | nil => simp
  | cons lexeme lexemes ih =>
      rw [List.flatMap_cons, List.foldl_append, foldl_collect_lexeme, ih, List.filterMap_cons]
      cases lexeme.fault? <;> simp

/-- A scan finds the lexemes of the pieces of its text. -/
theorem scan_of_cut (hcut : MaximalMunch source.toList pieces) :
    scan source =
      ⟨Piece.tokensFrom 0 1 pieces ++
          [.eof (1 + Text.lineFeeds source.toList) (Text.bytes source.toList)],
        Piece.faultsFrom 0 1 pieces⟩ := by
  rw [scan, scanInto, scanObserved_of_cut _ _ hcut]
  simp only [Sink.observer]
  rw [Piece.signalsFrom, foldl_collect]
  simp [Piece.faultsFrom]

/-! ## Tokens but for the end -/

namespace Lexicon

theorem kind_ne_eof_of_mem_punctuation {c : Char} {kind : Token.Kind}
    (hmem : (c, kind) ∈ punctuation) : kind ≠ .eof := by
  rintro rfl
  simp [punctuation] at hmem

theorem kind_ne_eof_of_mem_operators {c : Char} {alone extended : Token.Kind}
    (hmem : (c, alone, extended) ∈ operators) : alone ≠ .eof ∧ extended ≠ .eof := by
  constructor <;> rintro rfl <;> simp [operators] at hmem

theorem Spells.kind_ne_eof {text : List Char} {kind : Token.Kind} {literal : Option Literal}
    (hspells : Spells text (.token kind literal)) : kind ≠ .eof := by
  generalize hsense : Sense.token kind literal = sense at hspells
  cases hspells with
  | punctuation hmem =>
      cases hsense
      exact kind_ne_eof_of_mem_punctuation hmem
  | operator hmem =>
      cases hsense
      exact (kind_ne_eof_of_mem_operators hmem).1
  | extendedOperator hmem =>
      cases hsense
      exact (kind_ne_eof_of_mem_operators hmem).2
  | _ => cases hsense <;> simp

end Lexicon

theorem Lexicon.MaximalMunch.kind_ne_eof {text : List Char}
    (hcut : MaximalMunch text pieces) {offset line : Nat} {token : Token}
    (hmem : token ∈ Piece.tokensFrom offset line pieces) : token.kind ≠ .eof := by
  obtain ⟨front, piece, back, rfl, hsense, _⟩ := Piece.exists_piece_of_mem_tokensFrom hmem
  obtain ⟨rest, _, hlongest, _⟩ := hcut.of_append.exists_rest
  obtain ⟨text, sense⟩ := piece
  obtain rfl : sense = _ := hsense
  cases hlongest.belongs with
  | spelled hspells => exact hspells.kind_ne_eof

theorem inner_of_cut (hcut : MaximalMunch source.toList pieces) :
    (scan source).inner = Piece.tokensFrom 0 1 pieces := by
  have hkeep : ∀ token ∈ Piece.tokensFrom 0 1 pieces, decide (token.kind ≠ .eof) = true := by
    intro token hmem
    simpa using hcut.kind_ne_eof hmem
  rw [Scan.inner, scan_of_cut hcut, List.filter_append, List.filter_eq_self.mpr hkeep]
  simp [Token.eof]

end

/-! ## Maximal munch -/

/-- **A scan cuts its text by maximal munch.**  There is exactly one way to cut
a text into pieces of which each is the longest prefix of what remains that
belongs to the lexicon, and a scan finds exactly the lexemes of these pieces: a
token for every piece that means one and a fault for every piece that is one,
in their order, and the end of the text behind them. -/
theorem scan_eq_maximalMunch (source : String) :
    ∃ pieces,
      MaximalMunch source.toList pieces ∧
      (∀ others, MaximalMunch source.toList others → others = pieces) ∧
      (∀ piece ∈ pieces, piece.text ≠ []) ∧
      Piece.flatten pieces = source.toList ∧
      (scan source).tokens = Piece.tokensFrom 0 1 pieces ++
        [.eof (1 + Text.lineFeeds source.toList) (Text.bytes source.toList)] ∧
      (scan source).faults = Piece.faultsFrom 0 1 pieces := by
  obtain ⟨pieces, hcut⟩ := exists_maximalMunch source.toList
  refine ⟨pieces, hcut, fun _ hother => hcut.unique hother, hcut.text_ne_nil, hcut.flatten_eq, ?_⟩
  rw [scan_of_cut hcut]
  exact ⟨rfl, rfl⟩

end LoxTokens
