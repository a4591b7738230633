import LoxTokens.CommandLine.Console
import LoxTokens.CommandLine.Help
import LoxTokens.CommandLine.Workspace
import LoxTokens.Token.Data

/-!
# Running the command

A run ends in one of five ways: the arguments are at fault, or help is given,
or the log filter breaks it off, or the source cannot be read, or it is
scanned.  In the last case the tokens are printed whatever is wrong with the
source, and the status tells whether anything is.
-/

namespace LoxTokens.CommandLine

inductive Status where
  | success
  | unreadable
  | usage
  | faulty
  /-- The run was broken off, because a rule of the log filter is cut through a
  character. -/
  | brokenOff
  deriving DecidableEq

/-- The status as the system knows it. -/
def Status.code : Status → UInt32
  | success => 0
  | unreadable => 1
  | usage => 2
  | faulty => 65
  | brokenOff => 101

structure Outcome where
  status : Status
  /-- What is printed. -/
  output : List Char := []
  /-- What is written beside the output, in order. -/
  notices : List Notice := []
  /-- How many faults there were, if any. -/
  summary : Option String := none
  /-- Why the source could not be read. -/
  fatal : Option String := none
  /-- Why the arguments were not accepted. -/
  complaint : Option String := none

namespace Outcome

/-- The lines of the log.  An entry may go on over further lines, where a
token does, but only its first one is a line of the log: the others do not tell
where they come from. -/
def log (outcome : Outcome) : List (List Char) :=
  (outcome.notices.filterMap Notice.entry?).map Text.firstLine

def reports (outcome : Outcome) : List Report := outcome.notices.filterMap Notice.report?

end Outcome

/-- Where a source text comes from. -/
inductive Source where
  | standardInput
  | file (name : List Char)
  deriving DecidableEq

namespace Source

/-- The name under which a source is reported. -/
def name : Source → String
  | standardInput => "<stdin>"
  | file name => .ofList name

/-- What was to be done with a source. -/
def task : Source → String
  | standardInput => "read source from stdin"
  | file name => "read source file '" ++ .ofList name ++ "'"

end Source

/-- The source to be scanned: a file, or for want of one, or for a hyphen, the
standard input. -/
def Options.source (options : Options) : Source :=
  match options.file with
  | none => .standardInput
  | some file => if file = ['-'] then .standardInput else .file file

def Format.print (format : Format) (tokens : List Token) : List Char :=
  match format with
  | .text => Token.dump tokens
  | .json => (Token.listToJson tokens).chars .pretty 0 ++ ['\n']

def unreadable (source : Source) (failure : ReadFailure) : Outcome where
  status := .unreadable
  fatal := some ("Error: " ++ source.task ++ "\n\nCaused by:\n    " ++ failure.reason ++ "\n")

/-- A run that scans a text. -/
def scanned (options : Options) (filter : Log.Filter) (text : String) : Outcome :=
  let (tokens, notices) := scanObserved (console filter options.source.name text) #[] text
  let reported := (notices.toList.filterMap Notice.report?).length
  { status := if 0 < reported then .faulty else .success
    output := options.format.print tokens
    notices := notices.toList
    summary := if 0 < reported then some (toString reported ++ " error(s)") else none }

/-- A run with its source's contents at hand. -/
def withContents (options : Options) (filter : Log.Filter)
    (contents : Except ReadFailure ByteArray) : Outcome :=
  match contents with
  | .error failure => unreadable options.source failure
  | .ok bytes =>
    match String.fromUTF8? bytes with
    | none => unreadable options.source .notUtf8
    | some text => scanned options filter text

/-- What a run may draw on besides its arguments. -/
structure Surroundings where
  workspace : Workspace := []
  standardInput : ByteArray := .empty
  logFilter : Option String := none

def Surroundings.read (surroundings : Surroundings) : Source → Except ReadFailure ByteArray
  | .standardInput => .ok surroundings.standardInput
  | .file name => surroundings.workspace.read name

/-- What is left to be done once the arguments and the log filter are read. -/
inductive Plan where
  | finished (outcome : Outcome)
  | scan (options : Options) (filter : Log.Filter)

/-- What is to be done for a list of arguments under a log filter. -/
def Plan.ofArguments (arguments : List String) (logFilter : Option String) : Plan :=
  match Request.ofArguments arguments with
  | .error fault => .finished { status := .usage, complaint := some fault.message }
  | .ok (.help detail) => .finished { status := .success, output := detail.chars }
  | .ok (.scan options) =>
    match Log.filterFor? logFilter options.level with
    | none => .finished { status := .brokenOff }
    | some filter => .scan options filter

def run (arguments : List String) (surroundings : Surroundings) : Outcome :=
  match Plan.ofArguments arguments surroundings.logFilter with
  | .finished outcome => outcome
  | .scan options filter => withContents options filter (surroundings.read options.source)

end LoxTokens.CommandLine
