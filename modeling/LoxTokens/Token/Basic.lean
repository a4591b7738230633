import LoxTokens.Decimal.Layout
import LoxTokens.Token.Kind

/-!
# Tokens

A token is a piece of the source text together with what it means: its kind,
the text itself, the value that a literal stands for, and where it stands.
Places are counted in bytes of UTF-8 and lines from one.
-/

namespace LoxTokens

/-- A stretch of the source text, in bytes. -/
structure Span where
  offset : Nat
  length : Nat
  deriving DecidableEq

inductive Literal where
  | number (value : Binary64)
  | string (value : String)

namespace Literal

/-- The text of a value, with nothing quoted or escaped. -/
def chars : Literal → List Char
  | number value => value.chars
  | string value => value.toList

/-- Equality of values, where numbers compare as numbers do. -/
def equals : Literal → Literal → Bool
  | number x, number y => x.equals y
  | string s, string t => s == t
  | _, _ => false

end Literal

/-- A token of the source text.  Its line is the one on which it begins. -/
structure Token where
  kind : Token.Kind
  lexeme : String
  literal : Option Literal
  line : Nat
  span : Span

namespace Token

/-- The end of the text, which takes no room of its own. -/
def eof (line offset : Nat) : Token where
  kind := .eof
  lexeme := ""
  literal := none
  line := line
  span := ⟨offset, 0⟩

/-- The line that shows a token: kind, lexeme and value, with blanks between
and `null` for no value. -/
def chars (t : Token) : List Char :=
  t.kind.name.toList ++ ' ' :: t.lexeme.toList ++
    ' ' :: ((t.literal.map Literal.chars).getD "null".toList)

def text (t : Token) : String := .ofList t.chars

/-- The text dump of a list of tokens, each followed by a line feed. -/
def dump (tokens : List Token) : List Char := tokens.flatMap fun t => t.chars ++ ['\n']

/-- Equality field by field, where numbers compare as numbers do. -/
def equals (s t : Token) : Bool :=
  s.kind = t.kind && s.lexeme == t.lexeme && s.line == t.line && s.span = t.span &&
    match s.literal, t.literal with
    | none, none => true
    | some a, some b => a.equals b
    | _, _ => false

end Token

end LoxTokens
