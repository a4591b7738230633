import LoxTokens.Proofs.CommandLine.Outcome
import LoxTokens.Proofs.CommandLine.Settings
import Mathlib.Data.List.Basic

/-!
# What does not interfere with the results of a run

Neither the level of the log nor its filter has a part in the results of a run:
how it ends, what it prints and what it reports.  They only choose among the
lines of the full log.  If the filter has plain rules alone, what they choose are
the lines from one threshold on.

Nor does it matter whether a text is given on the standard input or in a file,
but for the name under which its faults are reported.
-/

namespace LoxTokens

/-- The event that a signal tells of. -/
def Log.Signal.event? : Log.Signal → Option Log.Event
  | .event shown => some shown
  | .report _ => none

namespace CommandLine

open Log (Event Signal Threshold)

/-! ## The log of a scan -/

/-- What is logged is an entry for each event that the filter admits. -/
theorem filterMap_entry?_notice? (filter : Log.Filter) (name source : String)
    (signals : List Signal) :
    (signals.filterMap (notice? filter name source)).filterMap Notice.entry? =
      ((signals.filterMap Signal.event?).filter filter.admits).map Event.entry := by
  induction signals with
  | nil => rfl
  | cons signal signals ih =>
      cases signal with
      | event event =>
          by_cases hadmits : filter.admits event = true <;>
            simp [notice?, Notice.entry?, Signal.event?, hadmits, ih]
      | report fault => exact ih

theorem log_scanned (options : Options) (filter : Log.Filter) (text : String) :
    (scanned options filter text).log =
      (((signals text).filterMap Signal.event?).filter filter.admits).map fun event =>
        Text.firstLine event.entry := by
  rw [scanned_eq, Outcome.log, filterMap_entry?_notice?, List.map_map]
  rfl

/-- A filter of plain rules chooses the lines from one threshold on. -/
theorem log_scanned_of_isPlain {filter : Log.Filter} (hplain : ∀ rule ∈ filter, rule.IsPlain)
    (options : Options) (text : String) :
    (scanned options filter text).log =
      (scanned options (.ofLevel .trace) text).log.filter filter.threshold.shows := by
  rw [log_scanned, log_scanned, List.filter_map]
  congr 1
  rw [List.filter_filter]
  refine List.filter_congr fun event _ => ?_
  rw [Function.comp_apply, Threshold.shows_firstLine_entry, Log.Filter.admits_trace, Bool.and_true,
    Log.Filter.admits_of_isPlain hplain]

/-! ## Two runs -/

/-- Two outcomes that differ at most in what is logged. -/
structure Outcome.SameResults (outcome outcome' : Outcome) : Prop where
  status_eq : outcome.status = outcome'.status
  output_eq : outcome.output = outcome'.output
  reports_eq : outcome.reports = outcome'.reports
  summary_eq : outcome.summary = outcome'.summary
  fatal_eq : outcome.fatal = outcome'.fatal
  complaint_eq : outcome.complaint = outcome'.complaint

theorem Outcome.SameResults.refl (outcome : Outcome) : outcome.SameResults outcome :=
  ⟨rfl, rfl, rfl, rfl, rfl, rfl⟩

theorem run_of_error {arguments : List String} {fault : UsageFault}
    (hrequest : Request.ofArguments arguments = .error fault) (surroundings : Surroundings) :
    run arguments surroundings = { status := .usage, complaint := some fault.message } := by
  rw [run, Plan.ofArguments, hrequest]

theorem run_of_help {arguments : List String} {detail : HelpDetail}
    (hrequest : Request.ofArguments arguments = .ok (.help detail)) (surroundings : Surroundings) :
    run arguments surroundings = { status := .success, output := detail.chars } := by
  rw [run, Plan.ofArguments, hrequest]

/-- What a run scans does not depend on its log filter. -/
theorem run_of_scan {arguments : List String} {options : Options}
    (hrequest : Request.ofArguments arguments = .ok (.scan options)) {logFilter : Option String}
    {filter : Log.Filter} (hfilter : Log.filterFor? logFilter options.level = some filter)
    (workspace : Workspace) (standardInput : ByteArray) :
    run arguments { workspace, standardInput, logFilter } =
      match Surroundings.text { workspace, standardInput } options.source with
      | .error failure => unreadable options.source failure
      | .ok text => scanned options filter text := by
  rw [run, Plan.ofArguments, hrequest]
  dsimp only
  rw [hfilter]
  exact withContents_read { workspace, standardInput, logFilter } options filter

theorem run_of_no_filter {arguments : List String} {options : Options}
    (hrequest : Request.ofArguments arguments = .ok (.scan options)) {surroundings : Surroundings}
    (hfilter : Log.filterFor? surroundings.logFilter options.level = none) :
    run arguments surroundings = { status := .brokenOff } := by
  rw [run, Plan.ofArguments, hrequest]
  dsimp only
  rw [hfilter]

theorem sameResults_scanned (options : Options) (level : Log.Level) (filter filter' : Log.Filter)
    (text : String) :
    (scanned options filter text).SameResults (scanned { options with level } filter' text) where
  status_eq := by rw [scanned_eq, scanned_eq]
  output_eq := by rw [scanned_eq, scanned_eq]
  reports_eq := by
    rw [reports_scanned, reports_scanned]
    rfl
  summary_eq := by rw [scanned_eq, scanned_eq]
  fatal_eq := by rw [scanned_eq, scanned_eq]
  complaint_eq := by rw [scanned_eq, scanned_eq]

variable {arguments arguments' : List String} {logFilter logFilter' : Option String}

theorem sameResults_run
    (halike : Alike Request.AgreeButForLevel (Request.ofArguments arguments)
      (Request.ofArguments arguments'))
    (hfilter : ¬Log.BreaksOff logFilter) (hfilter' : ¬Log.BreaksOff logFilter')
    (workspace : Workspace) (standardInput : ByteArray) :
    (run arguments { workspace, standardInput, logFilter }).SameResults
      (run arguments' { workspace, standardInput, logFilter := logFilter' }) := by
  generalize hrequest : Request.ofArguments arguments = request at halike
  generalize hrequest' : Request.ofArguments arguments' = request' at halike
  cases halike with
  | error fault =>
      rw [run_of_error hrequest, run_of_error hrequest']
      exact .refl _
  | ok hagree =>
      cases hagree with
      | help detail =>
          rw [run_of_help hrequest, run_of_help hrequest']
          exact .refl _
      | scan options level =>
          obtain ⟨filter, hfilter⟩ := Option.ne_none_iff_exists'.mp
            (mt (Log.filterFor?_eq_none_iff logFilter options.level).mp hfilter)
          obtain ⟨filter', hfilter'⟩ := Option.ne_none_iff_exists'.mp
            (mt (Log.filterFor?_eq_none_iff logFilter' level).mp hfilter')
          rw [run_of_scan hrequest hfilter, run_of_scan hrequest' hfilter']
          have hsource : Options.source { options with level } = options.source := rfl
          rw [hsource]
          cases Surroundings.text { workspace, standardInput } options.source with
          | error failure => exact .refl _
          | ok text => exact sameResults_scanned options level filter filter' text

/-- A filter that can be made leaves the level nothing to decide. -/
theorem run_eq_of_ofText
    (halike : Alike Request.AgreeButForLevel (Request.ofArguments arguments)
      (Request.ofArguments arguments'))
    {text : String} {filter : Log.Filter} (hread : Log.Filter.ofText text.toList = .ok filter)
    (workspace : Workspace) (standardInput : ByteArray) :
    run arguments { workspace, standardInput, logFilter := some text } =
      run arguments' { workspace, standardInput, logFilter := some text } := by
  have hfilter (level : Log.Level) : Log.filterFor? (some text) level = some filter := by
    simp only [Log.filterFor?, Option.map_some, hread]
  generalize hrequest : Request.ofArguments arguments = request at halike
  generalize hrequest' : Request.ofArguments arguments' = request' at halike
  cases halike with
  | error fault => rw [run_of_error hrequest, run_of_error hrequest']
  | ok hagree =>
      cases hagree with
      | help detail => rw [run_of_help hrequest, run_of_help hrequest']
      | scan options level =>
          rw [run_of_scan hrequest (hfilter _), run_of_scan hrequest' (hfilter _)]
          rfl

/-- Under a filter without brackets a log has the lines of the full log from one
threshold on, whatever is scanned. -/
theorem exists_threshold (arguments : List String) (hbracket : Log.IsBracketless logFilter) :
    ∃ threshold : Threshold, ∀ workspace standardInput,
      (run arguments { workspace, standardInput, logFilter }).log =
        (run arguments { workspace, standardInput, logFilter := some "trace" }).log.filter
          threshold.shows := by
  cases hrequest : Request.ofArguments arguments with
  | error fault =>
      refine ⟨none, fun workspace standardInput => ?_⟩
      rw [run_of_error hrequest, run_of_error hrequest]
      rfl
  | ok request =>
      cases request with
      | help detail =>
          refine ⟨none, fun workspace standardInput => ?_⟩
          rw [run_of_help hrequest, run_of_help hrequest]
          rfl
      | scan options =>
          cases hfilter : Log.filterFor? logFilter options.level with
          | none =>
              refine ⟨none, fun workspace standardInput => ?_⟩
              rw [run_of_no_filter hrequest hfilter]
              exact (Threshold.filter_shows_none _).symm
          | some filter =>
              refine ⟨filter.threshold, fun workspace standardInput => ?_⟩
              rw [run_of_scan hrequest hfilter, run_of_scan hrequest Log.filterFor?_trace]
              cases Surroundings.text { workspace, standardInput } options.source with
              | error failure => rfl
              | ok text =>
                  exact log_scanned_of_isPlain (Log.isPlain_of_filterFor? hbracket hfilter) options
                    text

/-! ## Two sources -/

/-- Two outcomes that differ at most in the name under which faults are
reported. -/
structure Outcome.SameButForName (outcome outcome' : Outcome) (name : String) : Prop where
  status_eq : outcome.status = outcome'.status
  output_eq : outcome.output = outcome'.output
  log_eq : outcome.log = outcome'.log
  reports_eq : outcome.reports = outcome'.reports.map fun report => { report with name }
  summary_eq : outcome.summary = outcome'.summary
  fatal_eq : outcome.fatal = outcome'.fatal
  complaint_eq : outcome.complaint = outcome'.complaint

theorem sameButForName_scanned (options : Options) (file : Option (List Char))
    (filter : Log.Filter) (text : String) :
    (scanned { options with file } filter text).SameButForName (scanned options filter text)
      { options with file }.source.name where
  status_eq := by rw [scanned_eq, scanned_eq]
  output_eq := by rw [scanned_eq, scanned_eq]
  log_eq := by rw [log_scanned, log_scanned]
  reports_eq := by
    rw [reports_scanned, reports_scanned, List.map_map]
    rfl
  summary_eq := by rw [scanned_eq, scanned_eq]
  fatal_eq := by rw [scanned_eq, scanned_eq]
  complaint_eq := by rw [scanned_eq, scanned_eq]

theorem sameButForName_run {options : Options} {file : List Char} {text : String}
    (hrequest : Request.ofArguments arguments = .ok (.scan options))
    (hsource : options.source = .standardInput)
    (hrequest' : Request.ofArguments arguments' = .ok (.scan { options with file := some file }))
    (hfile : file ≠ ['-']) {workspace : Workspace} (hread : workspace.read file = .ok text.toUTF8)
    (workspace' : Workspace) (standardInput : ByteArray) :
    (run arguments' { workspace, standardInput, logFilter }).SameButForName
      (run arguments { workspace := workspace', standardInput := text.toUTF8, logFilter })
      (.ofList file) := by
  have hsource' : { options with file := some file }.source = .file file :=
    (Options.source_eq_file_iff _ file).mpr ⟨rfl, hfile⟩
  cases hfilter : Log.filterFor? logFilter options.level with
  | none =>
      rw [run_of_no_filter hrequest hfilter, run_of_no_filter hrequest' hfilter]
      exact ⟨rfl, rfl, rfl, rfl, rfl, rfl, rfl⟩
  | some filter =>
      have htext : Surroundings.text { workspace := workspace', standardInput := text.toUTF8 }
          options.source = .ok text := by
        rw [Surroundings.text_eq_ok_iff, hsource]
        rfl
      have htext' : Surroundings.text { workspace, standardInput }
          { options with file := some file }.source = .ok text := by
        rw [Surroundings.text_eq_ok_iff, hsource']
        exact hread
      rw [run_of_scan hrequest hfilter, run_of_scan hrequest' hfilter, htext, htext']
      have hsame := sameButForName_scanned options (some file) filter text
      rw [hsource'] at hsame
      exact hsame

/-! ## Every two runs -/

/-- **Neither the log nor the source of a text interferes with the results.**
Arguments that differ in a level come to requests that agree but for it.  Then two
runs have the same results under any two log filters that do not break them off,
and under filters without brackets each log has the lines of the full log from a
threshold on.  Under a filter that can be read the level does not matter at all,
and rules in their usual forms can be read.  A text has the same outcome from a
file as from the standard input, but for the name in its reports. -/
theorem run_log_and_source :
    (∀ arguments arguments' : List String,
      DifferInLevel (arguments.map String.toList) (arguments'.map String.toList) →
        Alike Request.AgreeButForLevel (Request.ofArguments arguments)
          (Request.ofArguments arguments')) ∧
    (∀ arguments arguments' : List String,
      Alike Request.AgreeButForLevel (Request.ofArguments arguments)
          (Request.ofArguments arguments') →
        (∀ logFilter logFilter', ¬Log.BreaksOff logFilter → ¬Log.BreaksOff logFilter' →
          ∀ workspace standardInput,
            (run arguments { workspace, standardInput, logFilter }).SameResults
              (run arguments' { workspace, standardInput, logFilter := logFilter' })) ∧
        (∀ logFilter logFilter', Log.IsBracketless logFilter → Log.IsBracketless logFilter' →
          ∃ threshold threshold' : Threshold, ∀ workspace standardInput,
            let full := (run arguments { workspace, standardInput, logFilter := some "trace" }).log
            let log := (run arguments { workspace, standardInput, logFilter }).log
            let log' := (run arguments' { workspace, standardInput, logFilter := logFilter' }).log
            log = full.filter threshold.shows ∧ log' = full.filter threshold'.shows ∧
              (threshold.IsWithin threshold' → log.Sublist log')) ∧
        ∀ text filter, Log.Filter.ofText text.toList = .ok filter →
          ∀ workspace standardInput,
            run arguments { workspace, standardInput, logFilter := some text } =
              run arguments' { workspace, standardInput, logFilter := some text }) ∧
    (∀ text, Log.IsDirectives text → Log.BeginsRules text → '[' ∉ text →
      ∃ filter, Log.Filter.ofText text = .ok filter) ∧
    ∀ (arguments arguments' : List String) (options : Options) (file : List Char) (text : String),
      Request.ofArguments arguments = .ok (.scan options) → options.source = .standardInput →
      Request.ofArguments arguments' = .ok (.scan { options with file := some file }) →
      file ≠ ['-'] → ∀ workspace : Workspace, workspace.read file = .ok text.toUTF8 →
        ∀ workspace' standardInput logFilter,
          (run arguments' { workspace, standardInput, logFilter }).SameButForName
            (run arguments { workspace := workspace', standardInput := text.toUTF8, logFilter })
            (.ofList file) := by
  refine ⟨fun _ _ => Request.alike_ofArguments, ?_, fun _ => Log.Filter.exists_ofText_eq_ok, ?_⟩
  · intro arguments arguments' halike
    refine ⟨fun _ _ => sameResults_run halike, ?_, fun text filter =>
      run_eq_of_ofText halike⟩
    intro logFilter logFilter' hbracket hbracket'
    obtain ⟨threshold, hlog⟩ := exists_threshold arguments hbracket
    obtain ⟨threshold', hlog'⟩ := exists_threshold arguments' hbracket'
    refine ⟨threshold, threshold', fun workspace standardInput => ?_⟩
    have hfull : run arguments { workspace, standardInput, logFilter := some "trace" } =
        run arguments' { workspace, standardInput, logFilter := some "trace" } :=
      run_eq_of_ofText halike Log.ofText_trace workspace standardInput
    intro full log log'
    have hlog : log = full.filter threshold.shows := hlog workspace standardInput
    have hlog' : log' = full.filter threshold'.shows := by
      rw [show full = _ from congrArg Outcome.log hfull]
      exact hlog' workspace standardInput
    refine ⟨hlog, hlog', fun hwithin => ?_⟩
    rw [hlog, hlog']
    exact List.monotone_filter_right _ fun line => hwithin.shows
  · intro arguments arguments' options file text hrequest hsource hrequest' hfile workspace hread
      workspace' standardInput logFilter
    exact sameButForName_run hrequest hsource hrequest' hfile hread workspace' standardInput

/-- A level in two arguments, a filter in its usual form, and a text with a fault
in a file and on the standard input. -/
theorem run_log_and_source_faulty_text :
    (run ["--log-level=debug"] { standardInput := "@".toUTF8 }).SameResults
        (run ["--log-level=5"]
          { standardInput := "@".toUTF8, logFilter := some "lox=trace,off" }) ∧
      run ["--log-level=debug"] { standardInput := "@".toUTF8, logFilter := some "lox=trace,off" } =
        run ["--log-level=5"] { standardInput := "@".toUTF8, logFilter := some "lox=trace,off" } ∧
      (run ["a.lox"]
        { workspace := Workspace.add [] "a.lox".toList (.file "@".toUTF8) }).SameButForName
          (run [] { standardInput := "@".toUTF8 }) "a.lox" := by
  obtain ⟨hdiffer, hlogs, hread, hsources⟩ := run_log_and_source
  have hpieces : Text.pieces ',' "lox=trace,off".toList = ["lox=trace".toList, "off".toList] := rfl
  have hdirectives : Log.IsDirectives "lox=trace,off".toList := by
    rw [Log.IsDirectives, hpieces, List.forall_mem_cons, List.forall_mem_singleton]
    exact ⟨fun _ => @Log.IsDirective.within "lox".toList "trace".toList _ (by decide) rfl,
      fun _ => .level rfl⟩
  have hbegins : Log.BeginsRules "lox=trace,off".toList := by
    rw [Log.BeginsRules, hpieces, List.forall_mem_cons, List.forall_mem_singleton]
    exact ⟨fun _ => rfl, fun _ => rfl⟩
  obtain ⟨filter, hfilter⟩ := hread "lox=trace,off".toList hdirectives hbegins (by decide)
  have halike := hdiffer ["--log-level=debug"] ["--log-level=5"]
    (@DifferInLevel.joined "debug".toList "5".toList _ _ _ _ rfl rfl .nil)
  obtain ⟨hresults, -, hreadable⟩ := hlogs _ _ halike
  refine ⟨hresults none (some "lox=trace,off") ?_ ?_ [] "@".toUTF8,
    hreadable "lox=trace,off" filter hfilter [] "@".toUTF8,
    hsources [] ["a.lox"] {} "a.lox".toList "@" rfl rfl rfl (by decide) _ rfl [] .empty none⟩
  · rintro ⟨text, htext, -⟩
    cases htext
  · rintro ⟨text, htext, hcut⟩
    cases htext
    rw [hfilter] at hcut
    cases hcut

/-- Three filters that do interfere.  One cannot be read, so that the level decides
after all; one breaks the run off; and one asks for a field, so that it chooses
the lines by more than their level. -/
theorem run_unread_cut_and_field_filter :
    (DifferInLevel (["--log-level=debug"].map String.toList)
        (["--log-level=error"].map String.toList) ∧
      Log.IsDirectives "€=off".toList ∧
      (run ["--log-level=debug"] { logFilter := some "€=off" }).log ≠
        (run ["--log-level=error"] { logFilter := some "€=off" }).log) ∧
    (Log.IsDirectives "\u00a0a=debug".toList ∧
      (run [] { logFilter := some "\u00a0a=debug" }).status ≠ (run [] {}).status) ∧
    (Log.IsDirectives "lox::scanner[\x7bline\x7d]=trace".toList ∧
      ∀ threshold : Threshold,
        (run []
          { standardInput := "+".toUTF8,
            logFilter := some "lox::scanner[\x7bline\x7d]=trace" }).log ≠
          (run [] { standardInput := "+".toUTF8, logFilter := some "trace" }).log.filter
            threshold.shows) := by
  refine ⟨⟨?_, ?_, by decide +kernel⟩, ⟨?_, by decide +kernel⟩, ?_, ?_⟩
  · exact @DifferInLevel.joined "debug".toList "error".toList _ _ _ _ rfl rfl .nil
  · exact List.forall_mem_singleton.mpr fun _ =>
      @Log.IsDirective.within "€".toList "off".toList _ (by decide) rfl
  · exact List.forall_mem_singleton.mpr fun _ =>
      @Log.IsDirective.within "\u00a0a".toList "debug".toList _ (by decide) rfl
  · exact List.forall_mem_singleton.mpr fun _ =>
      @Log.IsDirective.within "lox::scanner[\x7bline\x7d]".toList "trace".toList _ (by decide) rfl
  · rintro (_ | _ | _ | _ | _ | _) <;> decide +kernel

end CommandLine

end LoxTokens
