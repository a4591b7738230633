import LoxTokens.Proofs.Cursor.Moves
import LoxTokens.Proofs.Lexicon.Scanning

/-!
# A scan step by step

A scan goes on in steps, each of which begins a lexeme, reads it and takes it in.  Whatever
the scan has found before and wherever it stands over its source, a step in front of the end

* takes a text that is not empty, which becomes the lexeme of its cursor,
* counts the line feeds of that text, and
* gains one token, or nothing, or one fault, whose stretch is all of that text.

A fault is told only when its text has been taken as a whole, so it leaves no token behind.
What is unread gets shorter with every step, and every step gains one finding at most.  So a
whole scan takes no more steps, and finds no more, than its source has characters.
-/

namespace LoxTokens

open Lexicon Text

namespace Progress

variable {σ : Type} {observe : Observer σ} {before after : Progress σ}

/-! ## One step -/

/-- Goes one lexeme on.  There is no step at the end. -/
def step? (observe : Observer σ) (progress : Progress σ) : Option (Progress σ) :=
  (Lexeme.next? progress.cursor).map fun (lexeme, cursor) => progress.absorb observe lexeme cursor

/-- A scan has gone on over a text, which is the lexeme that its cursor shows. -/
structure Takes (before after : Progress σ) (text : List Char) : Prop where
  ne_nil : text ≠ []
  unread_eq : before.cursor.unread = text ++ after.cursor.unread
  start_eq : after.cursor.start = before.cursor.offset
  lexemeChars_eq : after.cursor.lexemeChars = text
  line_eq : after.cursor.line = before.cursor.line + lineFeeds text

/-- What a step can gain. -/
inductive Gain where
  | token
  | nothing
  | fault

/-- A step has led from one point of a scan to another with such a gain.  What it has found
takes the given stretch of the source. -/
def Gains (observe : Observer σ) (before after : Progress σ) (span : Span) : Gain → Prop
  | .token => ∃ token, token.span = span ∧ after.tokens = before.tokens.push token ∧
      after.faults = before.faults ∧
      after.observed = observe before.observed (.event (.token token))
  | .nothing => after.tokens = before.tokens ∧ after.faults = before.faults ∧
      after.observed = before.observed
  | .fault => ∃ fault, fault.span = span ∧ after.tokens = before.tokens ∧
      after.faults = before.faults + 1 ∧
      after.observed = observe (observe before.observed (.event (.fault fault))) (.report fault)

theorem Takes.offset_eq {text : List Char} (htakes : Takes before after text) :
    after.cursor.offset = before.cursor.offset + bytes text := by
  rw [Cursor.offset, htakes.start_eq, ← htakes.lexemeChars_eq, Cursor.lexemeChars, bytes_reverse]

/-- A cursor that is over a source stays over it. -/
theorem Takes.hasTaken {text read : List Char} {source : List Char}
    (htakes : Takes before after text) (htaken : before.cursor.HasTaken source read) :
    after.cursor.HasTaken source (read ++ text) := by
  refine ⟨?_, read, ?_, ?_⟩
  · rw [htaken.source_eq, htakes.unread_eq, List.append_assoc]
  · rw [htakes.lexemeChars_eq]
  · rw [htakes.start_eq, htaken.offset_eq]

namespace Gain

def tokens : Gain → Nat
  | token => 1
  | _ => 0

def faults : Gain → Nat
  | fault => 1
  | _ => 0

theorem tokens_add_faults_le (gain : Gain) : gain.tokens + gain.faults ≤ 1 := by
  cases gain <;> decide

theorem eq_of_counts_eq {gain other : Gain} (htokens : gain.tokens = other.tokens)
    (hfaults : gain.faults = other.faults) : gain = other := by
  cases gain <;> cases other <;> simp_all [tokens, faults]

end Gain

theorem Gains.counts_eq {span : Span} {gain : Gain}
    (hgains : Gains observe before after span gain) :
    after.tokens.size = before.tokens.size + gain.tokens ∧
      after.faults = before.faults + gain.faults := by
  cases gain with
  | token =>
      obtain ⟨token, -, htokens, hfaults, -⟩ := hgains
      rw [htokens, Array.size_push]
      exact ⟨rfl, hfaults⟩
  | nothing =>
      obtain ⟨htokens, hfaults, -⟩ := hgains
      rw [htokens]
      exact ⟨rfl, hfaults⟩
  | fault =>
      obtain ⟨fault, -, htokens, hfaults, -⟩ := hgains
      rw [htokens]
      exact ⟨rfl, hfaults⟩

/-- No two gains go together: the tokens and the faults would count differently. -/
theorem Gains.unique {span : Span} {gain other : Gain}
    (hgains : Gains observe before after span gain)
    (hother : Gains observe before after span other) : other = gain := by
  obtain ⟨htokens, hfaults⟩ := hgains.counts_eq
  obtain ⟨htokens', hfaults'⟩ := hother.counts_eq
  exact Gain.eq_of_counts_eq (by omega) (by omega)

theorem step?_of_unread_eq_nil (hunread : before.cursor.unread = []) :
    before.step? observe = none := by
  rw [step?, Lexeme.next?_of_unread_eq_nil hunread]
  rfl

/-- What is taken in of a piece is what its sense says. -/
theorem exists_gains_absorb (observe : Observer σ) (progress : Progress σ) (piece : Piece)
    (offset line : Nat) (cursor : Cursor) :
    ∃ gain, Gains observe progress
      (progress.absorb observe (piece.lexemeAt offset line) cursor)
      ⟨offset, bytes piece.text⟩ gain := by
  obtain ⟨text, sense⟩ := piece
  cases sense with
  | token kind literal => exact ⟨.token, _, rfl, rfl, rfl, rfl⟩
  | trivia => exact ⟨.nothing, rfl, rfl, rfl⟩
  | fault cause => exact ⟨.fault, _, rfl, rfl, rfl, rfl⟩

/-- In front of the end there is a step, and it takes the piece that is in front. -/
theorem exists_step? (observe : Observer σ) {before : Progress σ}
    (hunread : before.cursor.unread ≠ []) :
    ∃ after text, before.step? observe = some after ∧ Takes before after text ∧
      ∃ gain, Gains observe before after ⟨before.cursor.offset, bytes text⟩ gain := by
  obtain ⟨piece, rest, hpiece, hread⟩ := exists_reads hunread
  refine ⟨_, piece.text, ?_, ?_, exists_gains_absorb observe before piece _ before.cursor.line
    (before.cursor.behind piece.text rest)⟩
  · rw [step?, Lexeme.next?_of_reads hread hpiece]
    rfl
  · constructor
    · exact hread.text_ne_nil
    · rw [absorb_cursor, Cursor.behind_unread, hpiece]
    · rw [absorb_cursor]
      rfl
    · rw [absorb_cursor]
      exact before.cursor.lexemeChars_mark_take piece.text rest
    · rw [absorb_cursor, Cursor.behind_line]

theorem of_step?_eq_some (hstep : before.step? observe = some after) :
    ∃ text, Takes before after text ∧
      ∃ gain, Gains observe before after ⟨before.cursor.offset, bytes text⟩ gain := by
  have hunread : before.cursor.unread ≠ [] := by
    intro hempty
    rw [step?_of_unread_eq_nil hempty] at hstep
    cases hstep
  obtain ⟨other, text, hother, htakes, hgains⟩ := exists_step? observe hunread
  obtain rfl : other = after := Option.some.inj (hother.symm.trans hstep)
  exact ⟨text, htakes, hgains⟩

/-! ## Many steps -/

/-- A number of steps leads from one point of a scan to another. -/
inductive Steps (observe : Observer σ) : Nat → Progress σ → Progress σ → Prop where
  | refl (progress : Progress σ) : Steps observe 0 progress progress
  | next {count : Nat} {before between after : Progress σ} :
      before.step? observe = some between → Steps observe count between after →
      Steps observe (count + 1) before after

/-- Every step takes a character at least. -/
theorem Steps.length_unread_add_le {count : Nat} (hsteps : Steps observe count before after) :
    after.cursor.unread.length + count ≤ before.cursor.unread.length := by
  induction hsteps with
  | refl => exact Nat.le_refl _
  | next hstep _ ih =>
      obtain ⟨text, htakes, -⟩ := of_step?_eq_some hstep
      have hpositive := List.length_pos_iff.mpr htakes.ne_nil
      rw [htakes.unread_eq, List.length_append]
      omega

/-- Every step gains one token or one fault at most. -/
theorem Steps.findings_le {count : Nat} (hsteps : Steps observe count before after) :
    after.tokens.size + after.faults ≤ before.tokens.size + before.faults + count := by
  induction hsteps with
  | refl => exact Nat.le_refl _
  | next hstep _ ih =>
      obtain ⟨text, -, gain, hgains⟩ := of_step?_eq_some hstep
      obtain ⟨htokens, hfaults⟩ := hgains.counts_eq
      have hone := gain.tokens_add_faults_le
      omega

/-- A run is made of steps and ends where there is none. -/
theorem exists_steps_run (observe : Observer σ) (progress : Progress σ) :
    ∃ count, Steps observe count progress (progress.run observe) ∧
      (progress.run observe).step? observe = none := by
  fun_induction run observe progress with
  | case1 progress hnext =>
      refine ⟨0, .refl progress, ?_⟩
      rw [step?, hnext]
      rfl
  | case2 progress lexeme cursor hnext ih =>
      obtain ⟨count, hsteps, hend⟩ := ih
      refine ⟨count + 1, .next ?_ hsteps, hend⟩
      rw [step?, hnext]
      rfl

end Progress

/-- A scan has found what its run has, whoever observes it. -/
theorem findings_run {σ : Type} (observe : Observer σ) (initial : σ) (source : String) :
    ((Progress.atStart source.toList initial).run observe).tokens.toList = (scan source).inner ∧
      ((Progress.atStart source.toList initial).run observe).faults =
        (scan source).faults.length := by
  obtain ⟨pieces, hcut⟩ := exists_maximalMunch source.toList
  have hcovers : Progress.Covers observe (Progress.atStart source.toList initial) _ pieces :=
    Progress.covers_run hcut rfl
  rw [inner_of_cut hcut, scan_of_cut hcut]
  exact ⟨hcovers.tokens, hcovers.faults.trans (Nat.zero_add _)⟩

/-- A scan comes to its end in some steps, with a finding at most for each of them. -/
theorem exists_steps_scan {σ : Type} (observe : Observer σ) (initial : σ) (source : String) :
    ∃ count, (scan source).inner.length + (scan source).faults.length ≤ count ∧
      count ≤ source.length ∧
      Progress.Steps observe count (.atStart source.toList initial)
        ((Progress.atStart source.toList initial).run observe) ∧
      ((Progress.atStart source.toList initial).run observe).step? observe = none := by
  obtain ⟨count, hsteps, hend⟩ :=
    Progress.exists_steps_run observe (.atStart source.toList initial)
  obtain ⟨htokens, hfaults⟩ := findings_run observe initial source
  have hfindings := hsteps.findings_le
  have hunread := hsteps.length_unread_add_le
  refine ⟨count, ?_, ?_, hsteps, hend⟩
  · rw [← htokens, ← hfaults, Array.length_toList]
    exact Nat.le_trans hfindings (Nat.le_of_eq (Nat.zero_add count))
  · rw [← String.length_toList]
    exact Nat.le_trans (Nat.le_add_left _ _) hunread

/-- **A step takes a text as a whole, and a scan ends after some steps.**  Whatever a scan
has found before and wherever in front of the end its cursor is, a step leads on to a place
that is not within a character.  The text between the two is the lexeme, its line feeds are
counted, and the step gains exactly one of three: a token, nothing, or a fault.  Tokens that
were there before stay, and the stretch of the token or the fault is all of the text.  A
whole scan comes to its end in no more steps than its source has characters, and finds no
more tokens and faults than it takes steps. -/
theorem scan_steps {σ : Type} (observe : Observer σ) (source : String) :
    (∀ (before : Progress σ) (read : List Char), before.cursor.HasTaken source.toList read →
      before.cursor.offset < source.utf8ByteSize →
      ∃ after text, before.step? observe = some after ∧ Progress.Takes before after text ∧
        after.cursor.HasTaken source.toList (read ++ text) ∧
        before.cursor.offset < after.cursor.offset ∧
        after.cursor.offset ≤ source.utf8ByteSize ∧
        String.Pos.Raw.IsValid source ⟨after.cursor.offset⟩ ∧
        ∃ gain, Progress.Gains observe before after ⟨before.cursor.offset, bytes text⟩ gain ∧
          ∀ other, Progress.Gains observe before after ⟨before.cursor.offset, bytes text⟩ other →
            other = gain) ∧
    (∀ initial, ∃ count, (scan source).inner.length + (scan source).faults.length ≤ count ∧
      count ≤ source.length ∧
      Progress.Steps observe count (.atStart source.toList initial)
        ((Progress.atStart source.toList initial).run observe) ∧
      ((Progress.atStart source.toList initial).run observe).step? observe = none) ∧
    (scan source).inner.length + (scan source).faults.length ≤ source.length := by
  refine ⟨?_, fun initial => exists_steps_scan observe initial source, ?_⟩
  · intro before read htaken hlt
    obtain ⟨after, text, hstep, htakes, gain, hgains⟩ :=
      Progress.exists_step? observe (htaken.offset_lt_iff.mp (bytes_toList source ▸ hlt))
    have hbehind := htakes.hasTaken htaken
    refine ⟨after, text, hstep, htakes, hbehind, ?_, bytes_toList source ▸ hbehind.offset_le,
      hbehind.isValid.2, gain, hgains, fun other => hgains.unique⟩
    rw [htakes.offset_eq]
    exact Nat.lt_add_of_pos_right (bytes_pos htakes.ne_nil)
  · -- the numbers do not depend on who observes, so any observer will do
    obtain ⟨count, hfindings, hcount, -⟩ := exists_steps_scan Sink.count.observer 0 source
    exact Nat.le_trans hfindings hcount

/-- A string that stays open, in front of it a state that no scan of the text comes to. -/
theorem scan_steps_open_string :
    let before : Progress Nat :=
      ⟨⟨0, [' ', 'x'], ['"', 'é', '\n'], 7⟩, #[.eof 3 0], 4, 9⟩
    before.cursor.HasTaken "x \"é\n".toList ['x', ' '] ∧
      before.cursor.offset < "x \"é\n".utf8ByteSize ∧
      ∃ after, before.step? Sink.count.observer = some after ∧ after.cursor.line = 8 ∧
        after.cursor.start = 2 ∧ 2 < after.cursor.offset ∧ after.cursor.offset ≤ 6 ∧
        Progress.Gains Sink.count.observer before after ⟨2, 4⟩ .fault := by
  intro before
  have htaken : before.cursor.HasTaken "x \"é\n".toList ['x', ' '] := ⟨rfl, [], rfl, rfl⟩
  have hlt : before.cursor.offset < "x \"é\n".utf8ByteSize := by decide
  obtain ⟨after, text, hstep, htakes, -, hforward, hwithin, -, gain, hgains, -⟩ :=
    (scan_steps Sink.count.observer "x \"é\n").1 before ['x', ' '] htaken hlt
  have hafter : before.step? Sink.count.observer =
      some ⟨⟨2, ['\n', 'é', '"'], [], 8⟩, #[.eof 3 0], 5, 10⟩ := rfl
  obtain rfl := Option.some.inj (hafter.symm.trans hstep)
  obtain rfl : ['"', 'é', '\n'] = text := htakes.lexemeChars_eq
  refine ⟨htaken, hlt, _, hstep, htakes.line_eq, htakes.start_eq, hforward, hwithin, ?_⟩
  have hfaults : 5 = 4 + gain.faults := hgains.counts_eq.2
  cases gain with
  | fault => exact hgains
  | token => cases hfaults
  | nothing => cases hfaults

end LoxTokens
