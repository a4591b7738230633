import LoxTokens.Lexeme
import LoxTokens.Log.Event

/-!
# Scanning a source text

A scan reads a text lexeme by lexeme to its end.  Faults do not stop it: they
are handed to whoever asked for the scan, and reading goes on behind them.  The
tokens always end with the one token that marks the end of the text.

All that happens is shown to an observer, which folds what it sees into a state
of its own.  A sink is an observer that only wants the faults; the plain scan
is the one whose sink keeps them all.
-/

namespace LoxTokens

open Log (Event Signal)

/-- An observer takes what it is shown into its state. -/
abbrev Observer (σ : Type) := σ → Signal → σ

/-- A sink takes faults into its state. -/
abbrev Sink (σ : Type) := σ → Fault → σ

namespace Sink

/-- The observer that passes faults on to a sink and drops all else. -/
def observer {σ : Type} (sink : Sink σ) : Observer σ
  | held, .event _ => held
  | held, .report fault => sink held fault

def collect : Sink (Array Fault) := Array.push

def count : Sink Nat := fun counted _ => counted + 1

end Sink

/-- How far a scan has come: where it stands, what it has found, and what its
observer has made of that. -/
structure Progress (σ : Type) where
  cursor : Cursor
  tokens : Array Token
  faults : Nat
  observed : σ

namespace Progress

variable {σ : Type}

def atStart (text : List Char) (observed : σ) : Progress σ where
  cursor := .atStart text
  tokens := #[]
  faults := 0
  observed := observed

/-- Takes in a lexeme, behind which the cursor stands.  A fault is told as an
event first and then handed over. -/
def absorb (observe : Observer σ) (progress : Progress σ) (lexeme : Lexeme) (cursor : Cursor) :
    Progress σ :=
  match lexeme with
  | .trivia => { progress with cursor }
  | .token token =>
    { progress with
      cursor
      tokens := progress.tokens.push token
      observed := observe progress.observed (.event (.token token)) }
  | .fault fault =>
    { progress with
      cursor
      faults := progress.faults + 1
      observed := observe (observe progress.observed (.event (.fault fault))) (.report fault) }

theorem absorb_cursor (observe : Observer σ) (progress : Progress σ) (lexeme : Lexeme)
    (cursor : Cursor) : (progress.absorb observe lexeme cursor).cursor = cursor := by
  cases lexeme <;> rfl

/-- Reads lexeme after lexeme to the end of the text. -/
def run (observe : Observer σ) (progress : Progress σ) : Progress σ :=
  match _hnext : Lexeme.next? progress.cursor with
  | none => progress
  | some (lexeme, cursor) => run observe (progress.absorb observe lexeme cursor)
termination_by progress.cursor.unread.length
decreasing_by
  rw [absorb_cursor]
  exact Lexeme.next?_unread_length_lt _hnext

theorem run_of_next?_eq_none {observe : Observer σ} {progress : Progress σ}
    (hend : Lexeme.next? progress.cursor = none) : progress.run observe = progress := by
  rw [run]
  split
  · rfl
  · next hnext => simp [hend] at hnext

theorem run_of_next?_eq_some {observe : Observer σ} {progress : Progress σ} {lexeme : Lexeme}
    {cursor : Cursor} (hnext : Lexeme.next? progress.cursor = some (lexeme, cursor)) :
    progress.run observe = (progress.absorb observe lexeme cursor).run observe := by
  rw [run]
  split
  · next hend => simp [hnext] at hend
  · next hsome =>
    rw [hnext] at hsome
    cases hsome
    rfl

/-- Closes a scan that has come to the end: the token for the end is added, and
the counts are told. -/
def finish (observe : Observer σ) (progress : Progress σ) : List Token × σ :=
  let tokens := progress.tokens.push (.eof progress.cursor.line progress.cursor.offset)
  (tokens.toList,
    observe progress.observed (.event (.finished tokens.size progress.faults progress.cursor.line)))

end Progress

/-- Scans a text under observation: its tokens, and the observer's last state. -/
def scanObserved {σ : Type} (observe : Observer σ) (initial : σ) (source : String) :
    List Token × σ :=
  ((Progress.atStart source.toList initial).run observe).finish observe

/-- Scans a text, handing its faults to a sink that may hold others already. -/
def scanInto {σ : Type} (sink : Sink σ) (held : σ) (source : String) : List Token × σ :=
  scanObserved sink.observer held source

structure Scan where
  tokens : List Token
  faults : List Fault

namespace Scan

def hasFaults (scan : Scan) : Bool := !scan.faults.isEmpty

end Scan

def scan (source : String) : Scan :=
  let (tokens, faults) := scanInto Sink.collect #[] source
  ⟨tokens, faults.toList⟩

/-- All that a scan shows, in order. -/
def signals (source : String) : List Signal :=
  (scanObserved (σ := Array Signal) Array.push #[] source).2.toList

end LoxTokens
