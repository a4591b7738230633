import LoxTokens.Proofs.CommandLine.Interference
import LoxTokens.Proofs.Positions.LineEnds
import LoxTokens.Proofs.Positions.Lines
import LoxTokens.Proofs.Splicing.LineEndings

/-!
# Where reports point

A report points at the first byte of a fault by line and column, and it counts lines
in another way than the scan does: a carriage return ends a line too, unless a line
feed follows.  The scan counts line feeds alone, and for a fault those up to its end.

The two agree but for what one of them leaves out.  No fault begins with a line feed,
so none of them lies within a pair of a carriage return and a line feed.  For the same
reason each report of a run points behind all the reports before it.
-/

namespace LoxTokens

open Lexicon Piece Text

/-! ## Faults in their text -/

/-- What is at fault begins with a quote or with a character that begins no lexeme, and
so not with a line feed. -/
theorem Lexicon.Belongs.head?_ne_lineFeed {piece : Piece} {rest : List Char}
    {cause : Fault.Cause} (hbelongs : Belongs piece rest) (hsense : piece.sense = .fault cause) :
    piece.text.head? ≠ some '\n' := by
  intro hhead
  cases hbelongs with
  | spelled hspells =>
      dsimp only at hsense
      subst hsense
      cases hspells
  | openString _ => cases hhead
  | foreign hnone =>
      obtain rfl := Option.some.inj hhead
      exact hnone [] .trivia .lineFeed

/-- A fault cuts its source in three: what is before it, what is at fault, and what is
behind it. -/
theorem exists_parts_of_mem_faults {source : String} {fault : Fault}
    (hmem : fault ∈ (scan source).faults) :
    ∃ front part back, source.toList = front ++ part ++ back ∧
      fault.span = ⟨bytes front, bytes part⟩ ∧ part ≠ [] ∧ part.head? ≠ some '\n' ∧
      fault.line = 1 + lineFeeds (front ++ part) := by
  obtain ⟨pieces, hcut⟩ := exists_maximalMunch source.toList
  rw [scan_of_cut hcut] at hmem
  obtain ⟨front, piece, back, rfl, hsense, hline, hspan⟩ := exists_piece_of_mem_faultsFrom hmem
  obtain ⟨rest, _, hlongest, _⟩ := hcut.of_append.exists_rest
  refine ⟨flatten front, piece.text, flatten back, ?_, ?_, hcut.text_ne_nil piece (by simp),
    hlongest.belongs.head?_ne_lineFeed hsense, ?_⟩
  · rw [← hcut.flatten_eq, flatten_append, flatten_cons, List.append_assoc]
  · rw [hspan, Nat.zero_add]
  · rw [hline, flatten_append, flatten_cons, flatten_nil, List.append_nil]

/-! ## The header of a fault -/

/-- A report counts the line feeds before a fault and the carriage returns that are
alone. -/
theorem line_positionAt {source : String} {fault : Fault}
    (hmem : fault ∈ (scan source).faults) :
    (positionAt source.toList fault.span.offset).line =
      lineAt source.toList fault.span.offset +
        loneReturnsBefore source.toList fault.span.offset := by
  obtain ⟨front, part, back, hsource, hspan, hne, hhead, -⟩ := exists_parts_of_mem_faults hmem
  have hhead : (part ++ back).head? ≠ some '\n' := by
    obtain ⟨c, others, rfl⟩ := List.exists_cons_of_ne_nil hne
    exact hhead
  rw [hsource, hspan, List.append_assoc, lineAt_append, positionAt, before_append,
    Position.line_behind _ _ hhead]
  rfl

/-- The line of a fault is that of its end, without the carriage returns. -/
theorem line_add_loneReturnsBefore {source : String} {fault : Fault}
    (hmem : fault ∈ (scan source).faults) :
    fault.line + loneReturnsBefore source.toList fault.span.offset =
      (positionAt source.toList fault.span.offset).line +
        lineFeeds (fault.span.textIn source.toList) := by
  obtain ⟨front, part, back, hsource, hspan, -, -, hline⟩ := exists_parts_of_mem_faults hmem
  have hbefore : lineAt source.toList fault.span.offset = 1 + lineFeeds front := by
    rw [hsource, hspan, List.append_assoc, lineAt_append]
  have hpart : fault.span.textIn source.toList = part := by
    rw [hsource, hspan, List.append_assoc, Span.textIn_append]
  rw [line_positionAt hmem, hbefore, hpart, hline, lineFeeds_append]
  omega

/-- The positions of faults are in the order of the text. -/
theorem pairwise_positionAt_faults (source : String) :
    (scan source).faults.Pairwise fun earlier later =>
      (positionAt source.toList earlier.span.offset).IsBefore
        (positionAt source.toList later.span.offset) := by
  have horder : (scan source).faults.Pairwise fun earlier later =>
      earlier.span.stop ≤ later.span.offset := by
    obtain ⟨pieces, hcut⟩ := exists_maximalMunch source.toList
    rw [scan_of_cut hcut]
    exact pairwise_faultsFrom 0 1 pieces
  refine horder.imp_of_mem ?_
  intro earlier later hearlier _ hstop
  obtain ⟨front, part, back, hsource, hspan, hne, hhead, -⟩ := exists_parts_of_mem_faults hearlier
  rw [hspan, Span.stop, ← bytes_append] at hstop
  rw [hsource, hspan]
  exact positionAt_isBefore hne hhead hstop

/-- The line on which any token would begin that stood where a fault stands. -/
theorem line_eq_positionAt_iff {source other : String} {fault : Fault} {token : Token}
    (hfault : fault ∈ (scan source).faults) (htoken : token ∈ (scan other).inner)
    (hoffset : token.span.offset = fault.span.offset)
    (hbefore : before other.toList fault.span.offset = before source.toList fault.span.offset) :
    token.line = (positionAt source.toList fault.span.offset).line ↔
      loneReturnsBefore source.toList fault.span.offset = 0 := by
  obtain ⟨pieces, hcut⟩ := exists_maximalMunch other.toList
  rw [inner_of_cut hcut] at htoken
  have hline : token.line = lineAt source.toList fault.span.offset := by
    rw [line_of_mem_tokensFrom hcut htoken, hoffset, lineAt, lineAt, hbefore]
  rw [line_positionAt hfault, hline]
  omega

/-! ## The reports of a run -/

namespace CommandLine

/-- A run that is to scan scans the text of its source, if that has one. -/
theorem run_of_source {arguments : List String} {surroundings : Surroundings} {options : Options}
    {filter : Log.Filter} (hrequest : Request.ofArguments arguments = .ok (.scan options))
    (hfilter : Log.filterFor? surroundings.logFilter options.level = some filter) :
    run arguments surroundings =
      match surroundings.text options.source with
      | .error failure => unreadable options.source failure
      | .ok text => scanned options filter text := by
  obtain ⟨workspace, standardInput, logFilter⟩ := surroundings
  exact run_of_scan hrequest hfilter workspace standardInput

/-- A run reports nothing, or it has scanned a text. -/
theorem reports_run_cases (arguments : List String) (surroundings : Surroundings) :
    (run arguments surroundings).reports = [] ∨
      ∃ options filter text, run arguments surroundings = scanned options filter text := by
  cases hrequest : Request.ofArguments arguments with
  | error fault => exact .inl (by rw [run_of_error hrequest]; rfl)
  | ok request =>
      cases request with
      | help detail => exact .inl (by rw [run_of_help hrequest]; rfl)
      | scan options =>
          cases hfilter : Log.filterFor? surroundings.logFilter options.level with
          | none => exact .inl (by rw [run_of_no_filter hrequest hfilter]; rfl)
          | some filter =>
              rw [run_of_source hrequest hfilter]
              cases surroundings.text options.source with
              | error failure => exact .inl rfl
              | ok text => exact .inr ⟨options, filter, text, rfl⟩

theorem map_position_reports_scanned (options : Options) (filter : Log.Filter) (text : String) :
    (scanned options filter text).reports.map Report.position =
      (scan text).faults.map fun fault => positionAt text.toList fault.span.offset := by
  rw [reports_scanned, List.map_map]
  rfl

/-- **Reports point where the scan has been.**  A run reports the faults of its text,
each at the position of its first byte.  The line of a report is that of the scan there
and one more for every carriage return alone before it, and the column counts the bytes
of the last line.  So it is the line of a token that begins there unless there is such a
carriage return, and the fault's own line is without them and has the line feeds of the
fault.  Along the reports of any run the positions go strictly forward. -/
theorem run_report_positions (source : String) :
    (∀ (arguments : List String) (surroundings : Surroundings) (options : Options)
        (filter : Log.Filter),
      Request.ofArguments arguments = .ok (.scan options) →
      Log.filterFor? surroundings.logFilter options.level = some filter →
      surroundings.text options.source = .ok source →
      (run arguments surroundings).reports.map Report.position =
        (scan source).faults.map fun fault => positionAt source.toList fault.span.offset) ∧
    (∀ fault ∈ (scan source).faults,
      let position := positionAt source.toList fault.span.offset
      let loneReturns := loneReturnsBefore source.toList fault.span.offset
      position.line = 1 + lineFeeds (before source.toList fault.span.offset) + loneReturns ∧
      position.column = 1 + bytes (lastLine (before source.toList fault.span.offset)) ∧
      (∀ other : String,
        before other.toList fault.span.offset = before source.toList fault.span.offset →
        ∀ token ∈ (scan other).inner, token.span.offset = fault.span.offset →
          (token.line = position.line ↔ loneReturns = 0)) ∧
      fault.line + loneReturns = position.line + lineFeeds (fault.span.textIn source.toList)) ∧
    ∀ (arguments : List String) (surroundings : Surroundings),
      (run arguments surroundings).reports.Pairwise fun earlier later =>
        earlier.position.IsBefore later.position ∧ earlier.position ≠ later.position := by
  refine ⟨?_, ?_, ?_⟩
  · intro arguments surroundings options filter hrequest hfilter htext
    rw [run_of_source hrequest hfilter, htext]
    exact map_position_reports_scanned options filter source
  · intro fault hmem position loneReturns
    refine ⟨line_positionAt hmem, Position.column_behind rfl _, ?_,
      line_add_loneReturnsBefore hmem⟩
    intro other hbefore token htoken hoffset
    exact line_eq_positionAt_iff hmem htoken hoffset hbefore
  · intro arguments surroundings
    rcases reports_run_cases arguments surroundings with hnone | ⟨options, filter, text, hrun⟩
    · rw [hnone]
      exact List.Pairwise.nil
    · rw [hrun, reports_scanned]
      refine List.pairwise_map.mpr ((pairwise_positionAt_faults text).imp ?_)
      intro earlier later hbefore
      exact ⟨hbefore, hbefore.ne⟩

/-- A carriage return alone, a character at fault, a pair, and a string over two lines that
stays open.  A plus sign in place of the character is on the first line, where the scan is
but not the report. -/
theorem run_report_positions_line_ends :
    (run [] { standardInput := "\r@\r\n\"a\n".toUTF8 }).reports.map Report.position =
        [⟨2, 1⟩, ⟨3, 1⟩] ∧
      (∀ token ∈ (scan "\r+").inner, token.span.offset = 1 → token.line ≠ 2) ∧
      3 + loneReturnsBefore "\r@\r\n\"a\n".toList 4 = 3 + lineFeeds "\"a\n".toList := by
  obtain ⟨hreports, hfaults, -⟩ := run_report_positions "\r@\r\n\"a\n"
  have hforeign : (⟨.foreignCharacter '@', 1, ⟨1, 1⟩, .unknown⟩ : Fault) ∈
      (scan "\r@\r\n\"a\n").faults :=
    List.mem_of_getElem? (i := 0) (by with_unfolding_all rfl)
  have hopen : (⟨.openString, 3, ⟨4, 3⟩, .unknown⟩ : Fault) ∈ (scan "\r@\r\n\"a\n").faults :=
    List.mem_of_getElem? (i := 1) (by with_unfolding_all rfl)
  refine ⟨?_, ?_, (hfaults _ hopen).2.2.2⟩
  · rw [hreports [] _ {} (.ofLevel .warn) rfl rfl ((Surroundings.text_eq_ok_iff _ _ _).mpr rfl)]
    with_unfolding_all rfl
  · intro token htoken hoffset hline
    have hsame := (hfaults _ hforeign).2.2.1 "\r+" rfl token htoken hoffset
    have hnone := hsame.mp hline
    cases hnone

end CommandLine

end LoxTokens
