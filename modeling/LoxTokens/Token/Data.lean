import LoxTokens.Json.Printer
import LoxTokens.Token.Basic

/-!
# Tokens as data

A token as a JSON object.  A value stands for itself, a string or a number, and
null says that there is none; a number without a JSON form is null as well.
-/

namespace LoxTokens

def Literal.toJson : Literal → Json
  | .number value => .ofBinary64 value
  | .string value => .string value

def Span.toJson (span : Span) : Json :=
  .object [("offset", .ofNat span.offset), ("len", .ofNat span.length)]

namespace Token

def toJson (t : Token) : Json :=
  .object
    [("kind", .string t.kind.name),
      ("lexeme", .string t.lexeme),
      ("literal", (t.literal.map Literal.toJson).getD .null),
      ("line", .ofNat t.line),
      ("span", t.span.toJson)]

def listToJson (tokens : List Token) : Json := .array (tokens.map toJson)

end Token

end LoxTokens
