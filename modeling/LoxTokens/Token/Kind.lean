/-!
# Kinds of tokens

The vocabulary of Lox: its punctuation, its operators, the three kinds of
literal and name, its reserved words and the end of the text.  A reserved word
is known by its spelling alone, letter case included, so the words are a type
of their own with one spelling each; the kind of a word is looked up among
them and is `identifier` for every other spelling.
-/

namespace LoxTokens

inductive Keyword where
  | and_ | class_ | else_ | false_ | fun_ | for_ | if_ | nil_
  | or_ | print_ | return_ | super_ | this_ | true_ | var_ | while_
  deriving DecidableEq

namespace Keyword

/-- All reserved words, in the order of the language's reference. -/
def all : List Keyword :=
  [and_, class_, else_, false_, fun_, for_, if_, nil_,
    or_, print_, return_, super_, this_, true_, var_, while_]

def spelling : Keyword → String
  | and_ => "and"
  | class_ => "class"
  | else_ => "else"
  | false_ => "false"
  | fun_ => "fun"
  | for_ => "for"
  | if_ => "if"
  | nil_ => "nil"
  | or_ => "or"
  | print_ => "print"
  | return_ => "return"
  | super_ => "super"
  | this_ => "this"
  | true_ => "true"
  | var_ => "var"
  | while_ => "while"

def ofSpelling? (word : String) : Option Keyword :=
  all.find? fun keyword => keyword.spelling = word

theorem ofSpelling?_spelling (keyword : Keyword) : ofSpelling? keyword.spelling = some keyword := by
  cases keyword <;> decide

theorem ofSpelling?_eq_some_iff {word : String} {keyword : Keyword} :
    ofSpelling? word = some keyword ↔ keyword.spelling = word := by
  constructor
  · intro hfound
    simpa using List.find?_some hfound
  · rintro rfl
    exact ofSpelling?_spelling keyword

end Keyword

namespace Token

inductive Kind where
  | leftParen | rightParen | leftBrace | rightBrace
  | comma | dot | minus | plus | semicolon | slash | star
  | bang | bangEqual | equal | equalEqual
  | greater | greaterEqual | less | lessEqual
  | identifier | string | number
  | keyword (word : Keyword)
  | eof
  deriving DecidableEq

namespace Kind

/-- All kinds: punctuation, operators, names and literals, reserved words, and
the end of the text. -/
def all : List Kind :=
  [leftParen, rightParen, leftBrace, rightBrace, comma, dot, minus, plus, semicolon, slash, star,
    bang, bangEqual, equal, equalEqual, greater, greaterEqual, less, lessEqual,
    identifier, string, number] ++ Keyword.all.map keyword ++ [eof]

/-- The name of a kind; that of a reserved word is the word in capitals. -/
def name : Kind → String
  | leftParen => "LEFT_PAREN"
  | rightParen => "RIGHT_PAREN"
  | leftBrace => "LEFT_BRACE"
  | rightBrace => "RIGHT_BRACE"
  | comma => "COMMA"
  | dot => "DOT"
  | minus => "MINUS"
  | plus => "PLUS"
  | semicolon => "SEMICOLON"
  | slash => "SLASH"
  | star => "STAR"
  | bang => "BANG"
  | bangEqual => "BANG_EQUAL"
  | equal => "EQUAL"
  | equalEqual => "EQUAL_EQUAL"
  | greater => "GREATER"
  | greaterEqual => "GREATER_EQUAL"
  | less => "LESS"
  | lessEqual => "LESS_EQUAL"
  | identifier => "IDENTIFIER"
  | string => "STRING"
  | number => "NUMBER"
  | keyword word => .ofList (word.spelling.toList.map Char.toUpper)
  | eof => "EOF"

def ofName? (text : String) : Option Kind := all.find? fun kind => kind.name = text

/-- The kind of a word: its own if it is reserved, and otherwise a name. -/
def ofWord (word : String) : Kind := ((Keyword.ofSpelling? word).map keyword).getD identifier

end Kind

end Token

end LoxTokens
