import LoxTokens.CommandLine.Console
import LoxTokens.Proofs.Lexicon.Scanning

/-!
# What observers are shown

Whoever observes a scan, the tokens are the same, and the observer folds the
same signals into its state.  So what an observer makes of a scan is a matter of
the list of signals alone.  The faults that are handed over among them are the
faults of the scan, each once and in their order.

The console appends at most one notice for each signal.
-/

namespace LoxTokens

open Log (Event Signal)
open Lexicon

/-! ## The signals of a scan -/

/-- The fault that a signal hands over. -/
def Log.Signal.fault? : Signal → Option Fault
  | .event _ => none
  | .report fault => some fault

variable {source : String} {pieces : List Piece}

theorem signals_of_cut (hcut : MaximalMunch source.toList pieces) :
    signals source =
      Piece.signalsFrom 0 1 pieces ++
        [.event (.finished ((Piece.tokensFrom 0 1 pieces).length + 1)
          (Piece.faultsFrom 0 1 pieces).length (1 + Text.lineFeeds source.toList))] := by
  rw [signals, scanObserved_of_cut _ _ hcut]
  simp

/-- An observer decides nothing about the tokens, and makes of a scan what it
makes of its signals. -/
theorem scanObserved_eq {σ : Type} (observe : Observer σ) (initial : σ) (source : String) :
    scanObserved observe initial source =
      ((scan source).tokens, (signals source).foldl observe initial) := by
  obtain ⟨pieces, hcut⟩ := exists_maximalMunch source.toList
  rw [scanObserved_of_cut _ _ hcut, scan_of_cut hcut, signals_of_cut hcut, List.foldl_append]
  rfl

theorem filterMap_fault?_signals (lexemes : List Lexeme) :
    (lexemes.flatMap Lexeme.signals).filterMap Signal.fault? = lexemes.filterMap Lexeme.fault? := by
  induction lexemes with
  | nil => rfl
  | cons lexeme lexemes ih =>
      rw [List.flatMap_cons, List.filterMap_append, ih]
      cases lexeme <;> rfl

/-- The faults that are handed over are those of the scan. -/
theorem filterMap_fault?_signals_eq_faults (source : String) :
    (signals source).filterMap Signal.fault? = (scan source).faults := by
  obtain ⟨pieces, hcut⟩ := exists_maximalMunch source.toList
  rw [signals_of_cut hcut, scan_of_cut hcut, List.filterMap_append, Piece.signalsFrom,
    filterMap_fault?_signals]
  exact List.append_nil _

/-! ## The console -/

namespace CommandLine

/-- What the console writes for a signal. -/
def notice? (filter : Log.Filter) (name source : String) : Signal → Option Notice
  | .event event => if filter.admits event then some (.log event.entry) else none
  | .report fault => some (.report (.ofFault (fault.attach name source)))

/-- One signal appends its notice, if it has one. -/
theorem toList_console (filter : Log.Filter) (name source : String) (notices : Array Notice)
    (signal : Signal) :
    (console filter name source notices signal).toList =
      notices.toList ++ (notice? filter name source signal).toList := by
  cases signal with
  | event event =>
      by_cases hadmits : filter.admits event = true
      · simp [console, notice?, hadmits]
      · simp [console, notice?, hadmits]
  | report fault => simp [console, notice?]

theorem toList_foldl_console (filter : Log.Filter) (name source : String) (signals : List Signal)
    (notices : Array Notice) :
    (signals.foldl (console filter name source) notices).toList =
      notices.toList ++ signals.filterMap (notice? filter name source) := by
  induction signals generalizing notices with
  | nil => simp
  | cons signal signals ih =>
      rw [List.foldl_cons, ih, toList_console, List.filterMap_cons]
      cases notice? filter name source signal <;> simp

/-- Reports are made of the faults that are handed over, whatever is logged. -/
theorem filterMap_report?_notice? (filter : Log.Filter) (name source : String)
    (signals : List Signal) :
    (signals.filterMap (notice? filter name source)).filterMap Notice.report? =
      (signals.filterMap Signal.fault?).map fun fault => .ofFault (fault.attach name source) := by
  rw [List.filterMap_filterMap, List.map_filterMap]
  congr 1
  funext signal
  cases signal with
  | event event =>
      by_cases hadmits : filter.admits event = true
      · simp [notice?, hadmits, Notice.report?, Signal.fault?]
      · simp [notice?, hadmits, Signal.fault?]
  | report fault => rfl

end CommandLine

end LoxTokens
