/-!
# Pieces of a text

A text that lists things with a separator between them, cut back into these
things.  A text with no separator is one piece, and separators side by side
leave an empty piece between them.
-/

namespace LoxTokens.Text

/-- The pieces of a text between separators. -/
def pieces (separator : Char) : List Char → List (List Char)
  | [] => [[]]
  | c :: text =>
    if c = separator then [] :: pieces separator text
    else
      match pieces separator text with
      | [] => [[c]]
      | piece :: rest => (c :: piece) :: rest

/-- The part of a text before the first separator, and the part behind it if
there is one. -/
def cut (separator : Char) (text : List Char) : List Char × Option (List Char) :=
  (text.takeWhile (· ≠ separator), (text.dropWhile (· ≠ separator)).tail?)

/-- The first line of a text, without its end: a line feed, with or without a
carriage return before it. -/
def firstLine : List Char → List Char
  | [] => []
  | '\n' :: _ => []
  | '\r' :: '\n' :: _ => []
  | c :: text => c :: firstLine text

end LoxTokens.Text
