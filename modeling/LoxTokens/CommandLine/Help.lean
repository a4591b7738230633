import LoxTokens.CommandLine.Arguments

/-!
# Help for the command line

The two help texts: a summary with a line for each option, and the full text.
-/

namespace LoxTokens.CommandLine

def briefHelp : List String :=
  ["Scan Lox source into tokens",
    "",
    "Usage: lox-scan [OPTIONS] [FILE]",
    "",
    "Arguments:",
    "  [FILE]  Lox source file to scan (omit or `-` for stdin)",
    "",
    "Options:",
    "      --format <FORMAT>        Token output format [default: text] [possible values: text, json]",
    "      --log-level <LOG_LEVEL>  Log level used when RUST_LOG is unset [default: warn]",
    "  -h, --help                   Print help (see more with '--help')"]

def fullHelp : List String :=
  ["Scan Lox source into tokens",
    "",
    "Usage: lox-scan [OPTIONS] [FILE]",
    "",
    "Arguments:",
    "  [FILE]",
    "          Lox source file to scan (omit or `-` for stdin)",
    "",
    "Options:",
    "      --format <FORMAT>",
    "          Token output format",
    "",
    "          Possible values:",
    "          - text: One `KIND lexeme literal` line per token",
    "          - json: The token array as JSON",
    "          ",
    "          [default: text]",
    "",
    "      --log-level <LOG_LEVEL>",
    "          Log level used when RUST_LOG is unset",
    "          ",
    "          [default: warn]",
    "",
    "  -h, --help",
    "          Print help (see a summary with '-h')"]

def HelpDetail.lines : HelpDetail → List String
  | .brief => briefHelp
  | .full => fullHelp

/-- A help text, each of its lines ended by a line feed. -/
def HelpDetail.chars (detail : HelpDetail) : List Char :=
  detail.lines.flatMap fun line => line.toList ++ ['\n']

end LoxTokens.CommandLine
