import LoxTokens.Log.Filter
import LoxTokens.Scan
import LoxTokens.Text.Position

/-!
# What a scan shows on the console

While the tokens are being collected, the log and the reports of faults are
written in the order in which they come up.
-/

namespace LoxTokens.CommandLine

/-- The report of a fault: its code, and where it is, in a named source. -/
structure Report where
  code : String
  name : String
  position : Text.Position
  deriving DecidableEq

namespace Report

/-- The report of a fault that has its source attached. -/
def ofFault (fault : Fault) : Report where
  code := fault.code
  name := fault.origin.name
  position := Text.positionAt fault.origin.text.toList fault.span.offset

/-- The place that a report points at: name, line and column. -/
def location (report : Report) : List Char :=
  report.name.toList ++ ':' :: Nat.toDigits 10 report.position.line ++
    ':' :: Nat.toDigits 10 report.position.column

end Report

/-- Something that is written beside the tokens. -/
inductive Notice where
  | log (entry : List Char)
  | report (report : Report)

def Notice.entry? : Notice → Option (List Char)
  | .log entry => some entry
  | .report _ => none

def Notice.report? : Notice → Option Report
  | .log _ => none
  | .report made => some made

/-- Observes the scan of a named source: logs the events that the filter
admits, and reports every fault. -/
def console (filter : Log.Filter) (name source : String) : Observer (Array Notice)
  | notices, .event event =>
    if filter.admits event then notices.push (.log event.entry) else notices
  | notices, .report fault => notices.push (.report (.ofFault (fault.attach name source)))

end LoxTokens.CommandLine
