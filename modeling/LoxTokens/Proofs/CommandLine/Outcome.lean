import LoxTokens.CommandLine.Run
import LoxTokens.Proofs.CommandLine.Signals

/-!
# How a run ends

Which arguments, files and input lead to which status, output and reports.
Arguments at fault and requests for help are settled by the arguments alone.  A
run that is to scan reads the one source that its options choose.  If there is
no text to be had from it, nothing is shown but the reason, under this source.
Otherwise the tokens are printed whatever is wrong with the text, and reports,
summary and status all go by the faults of its scan.

A source is reported under the name that the arguments give it, and the standard
input under a name of its own.  A file may have that name as well.
-/

namespace LoxTokens.CommandLine

/-- The text of a source, if it can be read. -/
def Surroundings.text (surroundings : Surroundings) (source : Source) :
    Except ReadFailure String :=
  match surroundings.read source with
  | .error failure => .error failure
  | .ok bytes =>
    match String.fromUTF8? bytes with
    | none => .error .notUtf8
    | some text => .ok text

namespace Outcome

end Outcome

/-! ## Sources -/

theorem Options.source_eq_file_iff (options : Options) (file : List Char) :
    options.source = .file file ↔ options.file = some file ∧ file ≠ ['-'] := by
  unfold source
  cases options.file with
  | none => simp
  | some given =>
      by_cases hhyphen : given = ['-']
      · subst hhyphen
        simp only [if_true, Option.some.injEq]
        constructor
        · intro hsource
          cases hsource
        · rintro ⟨rfl, hne⟩
          exact absurd rfl hne
      · simp only [if_neg hhyphen, Source.file.injEq, Option.some.injEq]
        constructor
        · rintro rfl
          exact ⟨rfl, hhyphen⟩
        · exact And.left

/-- Decoding finds the one text whose encoding the bytes are. -/
theorem fromUTF8?_eq_some_iff {bytes : ByteArray} {text : String} :
    String.fromUTF8? bytes = some text ↔ bytes = text.toUTF8 := by
  constructor
  · intro hdecode
    unfold String.fromUTF8? at hdecode
    split at hdecode
    · rw [← Option.some.inj hdecode]
      rfl
    · cases hdecode
  · rintro rfl
    unfold String.fromUTF8?
    exact dif_pos text.isValidUTF8

theorem Surroundings.text_eq_ok_iff (surroundings : Surroundings) (source : Source)
    (text : String) :
    surroundings.text source = .ok text ↔ surroundings.read source = .ok text.toUTF8 := by
  unfold Surroundings.text
  cases surroundings.read source with
  | error failure =>
      constructor
      · intro htext
        cases htext
      · intro hread
        cases hread
  | ok bytes =>
      rw [Except.ok.injEq, ← fromUTF8?_eq_some_iff]
      dsimp only
      cases String.fromUTF8? bytes <;> simp

/-! ## Endings -/

/-- The reports that a run counts are those that it has made. -/
theorem scanned_eq (options : Options) (filter : Log.Filter) (text : String) :
    scanned options filter text =
      let count := (scan text).faults.length
      { status := if 0 < count then .faulty else .success
        output := options.format.print (scan text).tokens
        notices := (signals text).filterMap (notice? filter options.source.name text)
        summary := if 0 < count then some (toString count ++ " error(s)") else none } := by
  simp only [scanned, scanObserved_eq, toList_foldl_console, List.nil_append,
    filterMap_report?_notice?, filterMap_fault?_signals_eq_faults, List.length_map]

theorem reports_scanned (options : Options) (filter : Log.Filter) (text : String) :
    (scanned options filter text).reports =
      (scan text).faults.map fun fault => .ofFault (fault.attach options.source.name text) := by
  rw [scanned_eq, Outcome.reports, filterMap_report?_notice?, filterMap_fault?_signals_eq_faults]

theorem withContents_read (surroundings : Surroundings) (options : Options) (filter : Log.Filter) :
    withContents options filter (surroundings.read options.source) =
      match surroundings.text options.source with
      | .error failure => unreadable options.source failure
      | .ok text => scanned options filter text := by
  unfold Surroundings.text
  cases surroundings.read options.source with
  | error failure => rfl
  | ok bytes =>
      simp only [withContents]
      cases String.fromUTF8? bytes <;> rfl

/-! ## Every run -/

end LoxTokens.CommandLine
