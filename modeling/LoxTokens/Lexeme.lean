import LoxTokens.Cursor
import LoxTokens.Decimal.Numeral
import LoxTokens.Fault

/-!
# Lexemes

A source text falls into lexemes, and the first character of a lexeme tells
what it can be.  Each kind of lexeme is then read as far as it goes, with at
most two characters of foresight: an operator may be followed by `=`, a slash
by another slash, and a point belongs to a number only before a digit.

A lexeme is a token, or trivia that mean nothing, or at fault.  Letters and
digits are those of ASCII; any other character that begins no lexeme is a
fault of its own.
-/

namespace LoxTokens

/-- What a character tells about the lexeme that it begins. -/
inductive Start where
  /-- A token by itself. -/
  | punctuation (kind : Token.Kind)
  /-- An operator, or another one if `=` follows. -/
  | operator (alone extended : Token.Kind)
  /-- A slash, or a comment if another slash follows. -/
  | slash
  | blank
  | lineFeed
  | quote
  | digit
  | letter
  /-- No lexeme begins like this. -/
  | foreign
  deriving DecidableEq

namespace Start

/-- The letters of names: those of ASCII and the underscore. -/
def isLetter (c : Char) : Bool := c.isAlpha || c = '_'

def isWordChar (c : Char) : Bool := isLetter c || c.isDigit

/-- What a character tells about the lexeme that it begins. -/
def ofChar (c : Char) : Start :=
  match c with
  | '(' => punctuation .leftParen
  | ')' => punctuation .rightParen
  | '{' => punctuation .leftBrace
  | '}' => punctuation .rightBrace
  | ',' => punctuation .comma
  | '.' => punctuation .dot
  | '-' => punctuation .minus
  | '+' => punctuation .plus
  | ';' => punctuation .semicolon
  | '*' => punctuation .star
  | '!' => operator .bang .bangEqual
  | '=' => operator .equal .equalEqual
  | '<' => operator .less .lessEqual
  | '>' => operator .greater .greaterEqual
  | '/' => slash
  | ' ' => blank
  | '\t' => blank
  | '\r' => blank
  | '\n' => lineFeed
  | '"' => quote
  | c => if c.isDigit then digit else if isLetter c then letter else foreign

end Start

inductive Lexeme where
  | token (token : Token)
  | trivia
  | fault (fault : Fault)

namespace Cursor

/-- The lexeme under way as a token that begins on a given line. -/
def token (cursor : Cursor) (kind : Token.Kind) (literal : Option Literal) (line : Nat) :
    Token where
  kind := kind
  lexeme := cursor.lexeme
  literal := literal
  line := line
  span := cursor.span

/-- The lexeme under way as a fault, found where the cursor stands. -/
def fault (cursor : Cursor) (cause : Fault.Cause) : Fault where
  cause := cause
  line := cursor.line
  span := cursor.span

end Cursor

namespace Lexeme

def readOperator (alone extended : Token.Kind) (line : Nat) (cursor : Cursor) :
    Lexeme × Cursor :=
  let (isExtended, cursor) := cursor.accept '='
  (.token (cursor.token (if isExtended then extended else alone) none line), cursor)

/-- Reads what begins with a slash that has been taken.  A comment ends before
the line feed. -/
def readSlash (line : Nat) (cursor : Cursor) : Lexeme × Cursor :=
  let (isComment, cursor) := cursor.accept '/'
  if isComment then (.trivia, (cursor.takeRun (· ≠ '\n')).2)
  else (.token (cursor.token .slash none line), cursor)

/-- Reads a string whose opening quote has been taken.  Its value is all that
stands between the quotes, line feeds included; without a closing quote the
string takes the rest of the text. -/
def readString (line : Nat) (cursor : Cursor) : Lexeme × Cursor :=
  let (body, cursor) := cursor.takeRun (· ≠ '"')
  -- counted in front of the closing quote, so that a fault is on the last line
  let cursor := cursor.newlines (Text.lineFeeds body)
  let (isClosed, cursor) := cursor.accept '"'
  if isClosed then (.token (cursor.token .string (some (.string (.ofList body))) line), cursor)
  else (.fault (cursor.fault .openString), cursor)

/-- Takes a point and the digits behind it, if a digit is behind it. -/
def takeFraction (cursor : Cursor) : Cursor :=
  if cursor.peek? = some '.' ∧ cursor.peekSecond?.any Char.isDigit then
    (cursor.takeChar.2.takeRun Char.isDigit).2
  else cursor

def readNumber (line : Nat) (cursor : Cursor) : Lexeme × Cursor :=
  let cursor := takeFraction (cursor.takeRun Char.isDigit).2
  let value := (Numeral.ofChars cursor.lexemeChars).toBinary64
  (.token (cursor.token .number (some (.number value)) line), cursor)

def readWord (line : Nat) (cursor : Cursor) : Lexeme × Cursor :=
  let cursor := (cursor.takeRun Start.isWordChar).2
  (.token (cursor.token (.ofWord cursor.lexeme) none line), cursor)

/-- Reads the lexeme whose first character has been taken, given the line on
which it begins. -/
def read (first : Char) (line : Nat) (cursor : Cursor) : Lexeme × Cursor :=
  match Start.ofChar first with
  | .punctuation kind => (.token (cursor.token kind none line), cursor)
  | .operator alone extended => readOperator alone extended line cursor
  | .slash => readSlash line cursor
  | .blank => (.trivia, cursor)
  | .lineFeed => (.trivia, cursor.newlines 1)
  | .quote => readString line cursor
  | .digit => readNumber line cursor
  | .letter => readWord line cursor
  | .foreign => (.fault (cursor.fault (.foreignCharacter first)), cursor)

/-- The next lexeme of a text and the cursor behind it; none at the end. -/
def next? (cursor : Cursor) : Option (Lexeme × Cursor) :=
  match cursor.mark.takeChar with
  | (none, _) => none
  -- the line is the one in front of the lexeme, whatever it takes
  | (some first, behind) => some (read first cursor.line behind)

/-! ### Reading goes forward -/

theorem takeFraction_unread_length_le (cursor : Cursor) :
    (takeFraction cursor).unread.length ≤ cursor.unread.length := by
  unfold takeFraction
  split
  · exact Nat.le_trans (Cursor.takeRun_unread_length_le ..) cursor.takeChar_unread_length_le
  · exact Nat.le_refl _

theorem read_unread_length_le (first : Char) (line : Nat) (cursor : Cursor) :
    (read first line cursor).2.unread.length ≤ cursor.unread.length := by
  have haccept := cursor.accept_unread_length_le
  have hrun := cursor.takeRun_unread_length_le
  unfold read
  split
  · exact Nat.le_refl _
  · exact haccept '='
  · unfold readSlash
    dsimp only
    split
    · exact Nat.le_trans (Cursor.takeRun_unread_length_le ..) (haccept '/')
    · exact haccept '/'
  · exact Nat.le_refl _
  · exact Nat.le_refl _
  · -- the lines counted over the body leave the unread text alone
    have hquote := Cursor.accept_unread_length_le
      ((cursor.takeRun (· ≠ '"')).2.newlines (Text.lineFeeds (cursor.takeRun (· ≠ '"')).1)) '"'
    have hbehind := Nat.le_trans hquote (hrun (· ≠ '"'))
    unfold readString
    dsimp only
    split <;> exact hbehind
  · exact Nat.le_trans (takeFraction_unread_length_le _) (hrun _)
  · exact hrun _
  · exact Nat.le_refl _

theorem next?_unread_length_lt {cursor behind : Cursor} {lexeme : Lexeme}
    (hnext : next? cursor = some (lexeme, behind)) :
    behind.unread.length < cursor.unread.length := by
  unfold next? at hnext
  split at hnext
  · cases hnext
  · next first taken htake =>
    have hbehind : behind = (read first cursor.line taken).2 := by
      rw [Option.some.inj hnext]
    have hread := read_unread_length_le first cursor.line taken
    have hunread : cursor.unread = first :: taken.unread := by
      unfold Cursor.takeChar Cursor.mark at htake
      split at htake
      · cases htake
      · next c rest hcons =>
        cases htake
        exact hcons
    rw [hunread, hbehind]
    exact Nat.lt_succ_of_le hread

end Lexeme

end LoxTokens
