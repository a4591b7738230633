import LoxTokens.Log.Level
import LoxTokens.Text.Pieces

/-!
# Arguments of the command line

The arguments name at most one file and set at most two options, each once,
in any order.  An option's value follows it as an argument of its own or
behind an equals sign.  A pair of hyphens alone ends the options, and a single
hyphen is an ordinary argument.  Arguments are judged from left to right, and
the first that asks for help or is at fault settles the matter.
-/

namespace LoxTokens.CommandLine

/-- In what form the tokens are printed. -/
inductive Format where
  | text
  | json
  deriving DecidableEq

def Format.ofName? (name : List Char) : Option Format :=
  if name = "text".toList then some .text
  else if name = "json".toList then some .json
  else none

/-- An option that takes a value. -/
inductive Setting where
  | format
  | logLevel
  deriving DecidableEq

/-- The name of an option, as it stands behind two hyphens. -/
def Setting.name : Setting → String
  | .format => "format"
  | .logLevel => "log-level"

def Setting.ofName? (name : List Char) : Option Setting :=
  [Setting.format, .logLevel].find? fun setting => setting.name.toList = name

inductive HelpDetail where
  | brief
  | full
  deriving DecidableEq

/-- What an argument is, as far as its own text tells. -/
inductive Argument where
  /-- A file, or the value of the option before it. -/
  | operand (text : List Char)
  /-- The end of the options. -/
  | endOfOptions
  | option (setting : Setting) (value : Option (List Char))
  | help (detail : HelpDetail)
  | unknown (text : List Char)

/-- What an argument is.  Of single-letter options only the first one counts,
for nothing follows the help that it asks for. -/
def Argument.ofText (text : List Char) : Argument :=
  match text with
  | ['-', '-'] => .endOfOptions
  | '-' :: '-' :: body =>
    match Text.cut '=' body with
    | (name, value) =>
      match Setting.ofName? name with
      | some setting => .option setting value
      | none => if body = "help".toList then .help .full else .unknown text
  | '-' :: 'h' :: _ => .help .brief
  | '-' :: _ :: _ => .unknown text
  | _ => .operand text

inductive UsageFault where
  | unknownOption (text : List Char)
  | missingValue (setting : Setting)
  | invalidValue (setting : Setting) (value : List Char)
  | repeatedOption (setting : Setting)
  | secondFile (text : List Char)
  | emptyFile
  deriving DecidableEq

/-- What a scan from the command line is to do. -/
structure Options where
  format : Format := .text
  level : Log.Level := .warn
  file : Option (List Char) := none
  deriving DecidableEq

inductive Request where
  | help (detail : HelpDetail)
  | scan (options : Options)

/-- What the arguments so far have settled. -/
structure Draft where
  format : Option Format := none
  level : Option Log.Level := none
  file : Option (List Char) := none

namespace Draft

/-- The options that a draft comes to when nothing more is said. -/
def options (draft : Draft) : Options where
  format := draft.format.getD .text
  level := draft.level.getD .warn
  file := draft.file

def assign (draft : Draft) (setting : Setting) (value : List Char) : Except UsageFault Draft :=
  match setting with
  -- a value that cannot be read is told before a repetition is
  | .format =>
    match Format.ofName? value with
    | none => .error (.invalidValue .format value)
    | some format =>
      if draft.format.isSome then .error (.repeatedOption .format)
      else .ok { draft with format := some format }
  | .logLevel =>
    match Log.Level.ofText? value with
    | none => .error (.invalidValue .logLevel value)
    | some level =>
      if draft.level.isSome then .error (.repeatedOption .logLevel)
      else .ok { draft with level := some level }

def chooseFile (draft : Draft) (file : List Char) : Except UsageFault Draft :=
  if draft.file.isSome then .error (.secondFile file)
  else if file.isEmpty then .error .emptyFile
  else .ok { draft with file := some file }

/-- Reads the arguments behind the end of the options. -/
def readOperands (draft : Draft) (arguments : List (List Char)) : Except UsageFault Request := do
  return .scan (← arguments.foldlM chooseFile draft).options

/-- Reads the arguments from left to right. -/
def readArguments (draft : Draft) : List (List Char) → Except UsageFault Request
  | [] => .ok (.scan draft.options)
  | argument :: rest =>
    match Argument.ofText argument with
    | .operand file =>
      match draft.chooseFile file with
      | .error fault => .error fault
      | .ok draft => draft.readArguments rest
    | .endOfOptions => draft.readOperands rest
    | .option setting (some value) =>
      match draft.assign setting value with
      | .error fault => .error fault
      | .ok draft => draft.readArguments rest
    | .option setting none =>
      match rest with
      | [] => .error (.missingValue setting)
      | next :: rest =>
        match Argument.ofText next with
        | .operand value =>
          match draft.assign setting value with
          | .error fault => .error fault
          | .ok draft => draft.readArguments rest
        | _ => .error (.missingValue setting)
    | .help detail => .ok (.help detail)
    | .unknown text => .error (.unknownOption text)

end Draft

def Request.ofArguments (arguments : List String) : Except UsageFault Request :=
  Draft.readArguments {} (arguments.map String.toList)

def UsageFault.message : UsageFault → String
  | .unknownOption text => "unexpected argument '" ++ .ofList text ++ "'"
  | .missingValue setting => "a value is required for '--" ++ setting.name ++ "'"
  | .invalidValue setting value =>
    "invalid value '" ++ .ofList value ++ "' for '--" ++ setting.name ++ "'"
  | .repeatedOption setting => "'--" ++ setting.name ++ "' cannot be given more than once"
  | .secondFile text => "unexpected argument '" ++ .ofList text ++ "'"
  | .emptyFile => "a value is required for '[FILE]'"

end LoxTokens.CommandLine
