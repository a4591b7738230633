import LoxTokens.Token.Basic

/-!
# Lexical errors

Two things can be wrong with a source text: a character that begins no token,
and a string that is never closed.  A fault says which, on which line the
reader stood behind it, and what stretch of text is to blame.  For people it
carries the name and the text of its source, which its finder may not know and
another may attach later.
-/

namespace LoxTokens

namespace Fault

inductive Cause where
  | foreignCharacter (character : Char)
  | openString
  deriving DecidableEq

/-- The source that a fault points into. -/
structure Origin where
  name : String
  text : String
  deriving DecidableEq

/-- A source that nobody has attached: no text, under a general name. -/
def Origin.unknown : Origin := ⟨"input", ""⟩

end Fault

/-- A lexical error.  Its line is the one reached behind the faulty text. -/
structure Fault where
  cause : Fault.Cause
  line : Nat
  span : Span
  origin : Fault.Origin := .unknown
  deriving DecidableEq

namespace Fault

def message (fault : Fault) : String :=
  match fault.cause with
  | .foreignCharacter character => "unexpected character '" ++ .singleton character ++ "'"
  | .openString => "unterminated string"

/-- The name of the kind of fault, by which it can be looked up. -/
def code (fault : Fault) : String :=
  match fault.cause with
  | .foreignCharacter _ => "lox::scan::unexpected_character"
  | .openString => "lox::scan::unterminated_string"

def help? (fault : Fault) : Option String :=
  match fault.cause with
  | .foreignCharacter _ => none
  | .openString => some "close the string with '\"'"

/-- What is written beside the faulty text. -/
def label (fault : Fault) : String :=
  match fault.cause with
  | .foreignCharacter _ => "here"
  | .openString => "string starts here"

def attach (fault : Fault) (name text : String) : Fault := { fault with origin := ⟨name, text⟩ }

end Fault

end LoxTokens
