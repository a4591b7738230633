import LoxTokens.Lexeme

/-!
# The languages of lexemes

A lexeme is written in one of a few small languages, and how it is written
decides what it means.  This file says which texts belong to these languages,
without saying how a reader finds them: `Spells` lists the languages whose
texts are recognised by themselves, and `Belongs` adds the two that need to
know what stands around them, a string that is never closed and a character
that begins nothing else.

A text is cut into lexemes by *maximal munch*: `MaximalMunch` cuts off the
longest prefix that belongs to any of the languages, over and over.
-/

namespace LoxTokens

/-- What a lexeme means, wherever it stands. -/
inductive Sense where
  | token (kind : Token.Kind) (literal : Option Literal)
  | trivia
  | fault (cause : Fault.Cause)

/-- A stretch of source text together with what it means. -/
structure Piece where
  text : List Char
  sense : Sense

namespace Lexicon

/-! ## Characters -/

/-- The characters that are tokens by themselves. -/
def punctuation : List (Char × Token.Kind) :=
  [('(', .leftParen), (')', .rightParen), ('{', .leftBrace), ('}', .rightBrace), (',', .comma),
    ('.', .dot), ('-', .minus), ('+', .plus), (';', .semicolon), ('*', .star)]

/-- The operators, with their kinds alone and with `=` behind them. -/
def operators : List (Char × Token.Kind × Token.Kind) :=
  [('!', .bang, .bangEqual), ('=', .equal, .equalEqual), ('<', .less, .lessEqual),
    ('>', .greater, .greaterEqual)]

/-- `[0-9]` -/
def IsDigit (c : Char) : Prop := '0' ≤ c ∧ c ≤ '9'

/-- `[A-Za-z_]` -/
def IsLetter (c : Char) : Prop := ('A' ≤ c ∧ c ≤ 'Z') ∨ ('a' ≤ c ∧ c ≤ 'z') ∨ c = '_'

/-- `[0-9]+` -/
def IsDigits (text : List Char) : Prop := text ≠ [] ∧ ∀ c ∈ text, IsDigit c

/-- `[A-Za-z_][A-Za-z0-9_]*` -/
def IsWord (text : List Char) : Prop :=
  ∃ first others, text = first :: others ∧ IsLetter first ∧
    ∀ c ∈ others, IsLetter c ∨ IsDigit c

/-! ## Languages -/

/-- The token of a number with these digits before and behind the point. -/
def numberSense (whole fraction : List Char) : Sense :=
  .token .number (some (.number (Numeral.ofDigits whole fraction).toBinary64))

/-- The texts that are lexemes whatever stands behind them, and what they
mean. -/
inductive Spells : List Char → Sense → Prop where
  | punctuation {c kind} : (c, kind) ∈ punctuation → Spells [c] (.token kind none)
  | operator {c alone extended} : (c, alone, extended) ∈ operators →
      Spells [c] (.token alone none)
  | extendedOperator {c alone extended} : (c, alone, extended) ∈ operators →
      Spells [c, '='] (.token extended none)
  | slash : Spells ['/'] (.token .slash none)
  | comment {body} : '\n' ∉ body → Spells ('/' :: '/' :: body) .trivia
  | blank {c} : c ∈ [' ', '\t', '\r'] → Spells [c] .trivia
  | lineFeed : Spells ['\n'] .trivia
  | string {body} : '"' ∉ body →
      Spells ('"' :: (body ++ ['"'])) (.token .string (some (.string (.ofList body))))
  | integer {whole} : IsDigits whole → Spells whole (numberSense whole [])
  | decimal {whole fraction} : IsDigits whole → IsDigits fraction →
      Spells (whole ++ '.' :: fraction) (numberSense whole fraction)
  /-- A reserved word has the kind of its own. -/
  | keyword (word : Keyword) : Spells word.spelling.toList (.token (.keyword word) none)
  /-- Every other word is a name. -/
  | name {text} : IsWord text → (∀ word : Keyword, word.spelling.toList ≠ text) →
      Spells text (.token .identifier none)

/-- The pieces that are lexemes in front of a given rest of the text. -/
inductive Belongs : Piece → List Char → Prop where
  | spelled {text sense rest} : Spells text sense → Belongs ⟨text, sense⟩ rest
  /-- A string may stay open, but only up to the end of the text. -/
  | openString {body} : '"' ∉ body → Belongs ⟨'"' :: body, .fault .openString⟩ []
  /-- A character with which no lexeme begins is at fault. -/
  | foreign {c rest} : (∀ others sense, ¬ Spells (c :: others) sense) →
      Belongs ⟨[c], .fault (.foreignCharacter c)⟩ rest

/-- A piece is the longest prefix, of itself and the rest of the text behind
it, that belongs to any of the languages. -/
structure IsLongest (piece : Piece) (rest : List Char) : Prop where
  belongs : Belongs piece rest
  longest : ∀ other behind, other.text ++ behind = piece.text ++ rest → Belongs other behind →
    other.text.length ≤ piece.text.length

/-- A text is cut into pieces of which each is the longest that the remaining
text begins with. -/
inductive MaximalMunch : List Char → List Piece → Prop where
  | nil : MaximalMunch [] []
  | cons {piece rest pieces} : IsLongest piece rest → MaximalMunch rest pieces →
      MaximalMunch (piece.text ++ rest) (piece :: pieces)

end Lexicon

end LoxTokens
