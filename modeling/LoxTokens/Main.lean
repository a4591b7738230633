import LoxTokens.CommandLine.Run

/-!
# The command

The program itself: it fetches what a run draws on, lets the library decide
what the run does, and writes that down.
-/

namespace LoxTokens.CommandLine

/-- Why the system could not read a source.  The number of an error may come
with either sign. -/
def failureOf (error : IO.Error) : ReadFailure :=
  match error with
  | .noFileOrDirectory .. => .notFound
  | .inappropriateType _ code _ =>
    if code = 21 ∨ code = 0 - 21 then .isDirectory else .notDirectory
  | .invalidArgument _ code details =>
    if code = 36 ∨ code = 0 - 36 then .nameTooLong else .other details
  | error => .other (toString error)

/-- Reads a stream to its end, which is an empty piece. -/
partial def readToEnd (stream : IO.FS.Stream) (sofar : ByteArray) : IO ByteArray := do
  let piece ← stream.read 65536
  if piece.isEmpty then return sofar
  readToEnd stream (sofar ++ piece)

def fetch (source : Source) : IO (Except ReadFailure ByteArray) := do
  try
    match source with
    | .standardInput => return .ok (← readToEnd (← IO.getStdin) .empty)
    | .file name => return .ok (← IO.FS.readBinFile (String.ofList name))
  catch error => return .error (failureOf error)

def writeNotice (stream : IO.FS.Stream) : Notice → IO Unit
  | .log entry => stream.putStrLn (.ofList entry)
  | .report report =>
    stream.putStrLn (report.code ++ "\n  [" ++ .ofList report.location ++ "]")

def perform (outcome : Outcome) : IO UInt32 := do
  let output ← IO.getStdout
  let errors ← IO.getStderr
  outcome.notices.forM (writeNotice errors)
  output.putStr (.ofList outcome.output)
  output.flush
  outcome.summary.forM errors.putStrLn
  outcome.complaint.forM fun complaint => errors.putStrLn ("error: " ++ complaint)
  outcome.fatal.forM errors.putStr
  return outcome.status.code

def program (arguments : List String) : IO UInt32 := do
  match Plan.ofArguments arguments (← IO.getEnv "RUST_LOG") with
  | .finished outcome => perform outcome
  | .scan options filter => perform (withContents options filter (← fetch options.source))

end LoxTokens.CommandLine

def main (arguments : List String) : IO UInt32 := LoxTokens.CommandLine.program arguments
