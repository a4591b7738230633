import LoxTokens.Proofs.CommandLine.Signals
import LoxTokens.Proofs.Positions.Order

/-!
# What a scan tells, in the order of its text

Tokens are told from deep inside the reading of a lexeme, and faults by the loop
around it, which counts them apart from the sink that it hands them to.  Still
the events and the reports of a scan are one account of its text: what is found
stands there in the order of the text, each token as one event and each fault as
one event with its report right behind it.  The last event tells how much there
was, and its three counts agree with what has been returned and reported.

Events below a level can be kept from an observer.  Nothing else is: it sees the
same account with these events taken out, and every report in its place.
-/

namespace LoxTokens

open Log (Event Level Signal)
open Lexicon

/-! ## What is found -/

/-- Something found in a text. -/
inductive Finding where
  | token (token : Token)
  | fault (fault : Fault)

namespace Finding

def span : Finding → Span
  | token found => found.span
  | fault found => found.span

def token? : Finding → Option Token
  | token found => some found
  | fault _ => none

def fault? : Finding → Option Fault
  | token _ => none
  | fault found => some found

/-- Some findings are these tokens and these faults merged: all of both, in
their order and in that of the text, with none reaching into the next. -/
structure IsMerged (findings : List Finding) (tokens : List Token) (faults : List Fault) : Prop
    where
  tokens_eq : findings.filterMap token? = tokens
  faults_eq : findings.filterMap fault? = faults
  offset_lt : findings.Pairwise fun earlier later => earlier.span.offset < later.span.offset
  stop_le : findings.Pairwise fun earlier later => earlier.span.stop ≤ later.span.offset

end Finding

/-- What is found of a lexeme; nothing of trivia. -/
def Lexeme.finding? : Lexeme → Option Finding
  | .token found => some (.token found)
  | .trivia => none
  | .fault found => some (.fault found)

namespace Piece

theorem keepsPlaces_finding? : KeepsPlaces Lexeme.finding? Finding.span := by
  intro piece offset line found hfound
  unfold lexemeAt at hfound
  cases hsense : piece.sense <;> rw [hsense] at hfound <;> cases hfound <;> rfl

theorem KeepsPlaces.length_pos {α : Type} {pick : Lexeme → Option α} {spanOf : α → Span}
    (hkeeps : KeepsPlaces pick spanOf) {offset line : Nat} {pieces : List Piece}
    (hne : ∀ piece ∈ pieces, piece.text ≠ []) {found : α}
    (hmem : found ∈ (lexemesFrom offset line pieces).filterMap pick) :
    0 < (spanOf found).length := by
  obtain ⟨lexeme, hlexeme, hpick⟩ := List.mem_filterMap.mp hmem
  obtain ⟨front, piece, back, rfl, rfl⟩ := exists_piece_of_mem_lexemesFrom hlexeme
  rw [hkeeps _ _ _ _ hpick]
  exact Text.bytes_pos (hne piece (by simp))

/-- What is found among pieces one behind the other. -/
def findingsFrom (offset line : Nat) (pieces : List Piece) : List Finding :=
  (lexemesFrom offset line pieces).filterMap Lexeme.finding?

theorem filterMap_token?_findingsFrom (offset line : Nat) (pieces : List Piece) :
    (findingsFrom offset line pieces).filterMap Finding.token? = tokensFrom offset line pieces := by
  rw [findingsFrom, List.filterMap_filterMap, tokensFrom]
  congr 1
  funext lexeme
  cases lexeme <;> rfl

theorem filterMap_fault?_findingsFrom (offset line : Nat) (pieces : List Piece) :
    (findingsFrom offset line pieces).filterMap Finding.fault? = faultsFrom offset line pieces := by
  rw [findingsFrom, List.filterMap_filterMap, faultsFrom]
  congr 1
  funext lexeme
  cases lexeme <;> rfl

theorem isMerged_findingsFrom {pieces : List Piece} (hne : ∀ piece ∈ pieces, piece.text ≠ [])
    (offset line : Nat) :
    Finding.IsMerged (findingsFrom offset line pieces) (tokensFrom offset line pieces)
      (faultsFrom offset line pieces) where
  tokens_eq := filterMap_token?_findingsFrom offset line pieces
  faults_eq := filterMap_fault?_findingsFrom offset line pieces
  offset_lt := by
    refine (keepsPlaces_finding?.pairwise offset line pieces).imp_of_mem ?_
    intro earlier later hearlier _ hstop
    have hlength := keepsPlaces_finding?.length_pos hne hearlier
    unfold Span.stop at hstop
    omega
  stop_le := keepsPlaces_finding?.pairwise offset line pieces

end Piece

/-! ## What is told -/

/-- What can be read off a signal: the level, the message and the fields of an
event, or the fault that is reported. -/
inductive Log.Record where
  | event (level : Level) (message : String) (fields : List (String × Log.Field))
  | report (fault : Fault)

open Log (Record)

def Log.Signal.record : Signal → Record
  | .event shown => .event shown.level shown.message shown.fields
  | .report handed => .report handed

/-- Whether something told is shown from a level on, as reports always are. -/
def Log.Record.shownAt (threshold : Level) : Record → Bool
  | .event level _ _ => level.shownAt threshold
  | .report _ => true

def Log.Record.isReport : Record → Bool
  | .event .. => false
  | .report _ => true

/-- What is told of something found: a token with its text and its line, a fault
with its message and its line, and right behind that its report. -/
def Finding.records : Finding → List Record
  | token found =>
    [.event .trace "token" [("token", .text found.chars), ("line", .count found.line)]]
  | fault found => [.event .debug found.message [("line", .count found.line)], .report found]

/-- An observer that events below a level do not reach. -/
def Observer.above {σ : Type} (threshold : Level) (observe : Observer σ) : Observer σ :=
  fun held signal => if signal.record.shownAt threshold then observe held signal else held

/-- What a scan tells an observer that events below a level do not reach. -/
def recordsAt (threshold : Level) (source : String) : List Record :=
  (scanObserved (Observer.above threshold fun (told : Array Record) signal =>
    told.push signal.record) #[] source).2.toList

theorem toList_foldl_above (threshold : Level) (signals : List Signal) (told : Array Record) :
    (signals.foldl (Observer.above threshold fun told signal => told.push signal.record)
        told).toList =
      told.toList ++ (signals.map Signal.record).filter (Record.shownAt threshold) := by
  induction signals generalizing told with
  | nil => simp
  | cons signal signals ih =>
      rw [List.foldl_cons, ih, Observer.above, List.map_cons, List.filter_cons]
      by_cases hshown : signal.record.shownAt threshold = true
      · rw [if_pos hshown, if_pos hshown, Array.toList_push, List.append_assoc,
          List.singleton_append]
      · rw [if_neg hshown, if_neg hshown]

theorem recordsAt_eq (threshold : Level) (source : String) :
    recordsAt threshold source =
      ((signals source).map Signal.record).filter (Record.shownAt threshold) := by
  rw [recordsAt, scanObserved_eq, toList_foldl_above]
  rfl

/-- No event is below the finest level. -/
theorem shownAt_trace (record : Record) : record.shownAt .trace = true := by
  cases record with
  | event level message fields => cases level <;> rfl
  | report fault => rfl

theorem recordsAt_trace (source : String) :
    recordsAt .trace source = (signals source).map Signal.record := by
  rw [recordsAt_eq, List.filter_eq_self]
  intro record _
  exact shownAt_trace record

/-- What is told of lexemes is what is told of their findings. -/
theorem map_record_signals (lexemes : List Lexeme) :
    (lexemes.flatMap Lexeme.signals).map Signal.record =
      (lexemes.filterMap Lexeme.finding?).flatMap Finding.records := by
  induction lexemes with
  | nil => rfl
  | cons lexeme lexemes ih =>
      rw [List.flatMap_cons, List.map_append, ih]
      cases lexeme <;> rfl

/-- The reports are those of the faults found. -/
theorem filter_isReport_records (findings : List Finding) :
    (findings.flatMap Finding.records).filter Record.isReport =
      (findings.filterMap Finding.fault?).map Record.report := by
  induction findings with
  | nil => rfl
  | cons finding findings ih =>
      rw [List.flatMap_cons, List.filter_append, ih]
      cases finding <;> rfl

/-- **The events and reports of a scan are an account of its text.**  They go
through the tokens and faults of the scan, merged in the order of the text, and
end with one event that counts the tokens, the end included, and the reports, and
tells the last line.  From any level on they are the same but for the events
below it. -/
theorem recordsAt_merged (source : String) :
    ∃ findings line offset,
      Finding.IsMerged findings (scan source).inner (scan source).faults ∧
      (scan source).tokens = (scan source).inner ++ [.eof line offset] ∧
      recordsAt .trace source =
        findings.flatMap Finding.records ++
          [.event .debug "scan finished"
            [("tokens", .count (scan source).tokens.length),
              ("errors", .count ((recordsAt .trace source).filter Record.isReport).length),
              ("lines", .count line)]] ∧
      ∀ threshold, recordsAt threshold source =
        (recordsAt .trace source).filter (Record.shownAt threshold) := by
  obtain ⟨pieces, hcut⟩ := exists_maximalMunch source.toList
  have hmerged := Piece.isMerged_findingsFrom hcut.text_ne_nil 0 1
  have htold : recordsAt .trace source =
      (Piece.findingsFrom 0 1 pieces).flatMap Finding.records ++
        [.event .debug "scan finished"
          [("tokens", .count ((Piece.tokensFrom 0 1 pieces).length + 1)),
            ("errors", .count (Piece.faultsFrom 0 1 pieces).length),
            ("lines", .count (1 + Text.lineFeeds source.toList))]] := by
    rw [recordsAt_trace, signals_of_cut hcut, List.map_append, Piece.signalsFrom,
      map_record_signals]
    rfl
  have hreports : ((recordsAt .trace source).filter Record.isReport).length =
      (Piece.faultsFrom 0 1 pieces).length := by
    rw [htold, List.filter_append, filter_isReport_records, hmerged.faults_eq]
    simp [Record.isReport]
  refine ⟨Piece.findingsFrom 0 1 pieces, 1 + Text.lineFeeds source.toList,
    Text.bytes source.toList, ?_, ?_, ?_, ?_⟩
  · rw [inner_of_cut hcut, scan_of_cut hcut]
    exact hmerged
  · rw [inner_of_cut hcut, scan_of_cut hcut]
  · rw [hreports, scan_of_cut hcut, List.length_append, List.length_singleton]
    exact htold
  · intro threshold
    rw [recordsAt_trace, recordsAt_eq]

end LoxTokens
