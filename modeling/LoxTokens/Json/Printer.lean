import LoxTokens.Json.Basic

/-!
# The text of a JSON value

One printer serves both layouts: the compact one writes no blanks, the pretty
one puts every item of an array and every field of an object on a line of its
own, two columns further in than what holds it.
-/

namespace LoxTokens.Json

/-- Where blanks stand between the parts of a value. -/
structure Layout where
  /-- What is written before an item, or before a closing bracket, that is held
  by this many arrays and objects. -/
  lineBreak : Nat → List Char
  /-- What is written between the colon and the value of a field. -/
  afterColon : List Char

/-- No blanks at all. -/
def Layout.compact : Layout := ⟨fun _ => [], []⟩

/-- A line for each item, indented by two columns a level. -/
def Layout.pretty : Layout := ⟨fun depth => '\n' :: List.replicate (2 * depth) ' ', [' ']⟩

/-- A character inside a string.  Quotes, backslashes and the control
characters below the blank are escaped, and nothing else is. -/
def escape (c : Char) : List Char :=
  match c with
  | '"' => ['\\', '"']
  | '\\' => ['\\', '\\']
  | '\x08' => ['\\', 'b']
  | '\x0c' => ['\\', 'f']
  | '\n' => ['\\', 'n']
  | '\r' => ['\\', 'r']
  | '\t' => ['\\', 't']
  | c =>
    if c.toNat < 32 then
      ['\\', 'u', '0', '0', Nat.digitChar (c.toNat / 16), Nat.digitChar (c.toNat % 16)]
    else [c]

def quote (text : List Char) : List Char := '"' :: text.flatMap escape ++ ['"']

mutual

/-- The text of a value that is held by `depth` arrays and objects. -/
def chars (layout : Layout) (depth : Nat) : Json → List Char
  | .null => "null".toList
  | .bool true => "true".toList
  | .bool false => "false".toList
  | .number numeral => numeral.chars
  | .string text => quote text.toList
  | .array [] => ['[', ']']
  | .array (item :: items) =>
    '[' :: layout.lineBreak (depth + 1) ++ chars layout (depth + 1) item ++
      itemChars layout (depth + 1) items ++ layout.lineBreak depth ++ [']']
  | .object [] => ['{', '}']
  | .object ((key, value) :: fields) =>
    '{' :: layout.lineBreak (depth + 1) ++ quote key.toList ++ ':' :: layout.afterColon ++
      chars layout (depth + 1) value ++
      fieldChars layout (depth + 1) fields ++ layout.lineBreak depth ++ ['}']

/-- The items of an array after its first. -/
def itemChars (layout : Layout) (depth : Nat) : List Json → List Char
  | [] => []
  | item :: items =>
    ',' :: layout.lineBreak depth ++ chars layout depth item ++ itemChars layout depth items

/-- The fields of an object after its first. -/
def fieldChars (layout : Layout) (depth : Nat) : List (String × Json) → List Char
  | [] => []
  | (key, value) :: fields =>
    ',' :: layout.lineBreak depth ++ quote key.toList ++ ':' :: layout.afterColon ++
      chars layout depth value ++ fieldChars layout depth fields

end

def text (layout : Layout) (value : Json) : String := .ofList (value.chars layout 0)

end LoxTokens.Json
