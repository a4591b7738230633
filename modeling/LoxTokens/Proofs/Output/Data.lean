import LoxTokens.Proofs.Json.Printing
import LoxTokens.Proofs.Json.Values
import LoxTokens.Proofs.Numbers.Shortest
import LoxTokens.Token.Data

/-!
# Reading tokens back from data

Tokens printed as data are JSON, in the compact layout and in the pretty one,
and who reads that JSON gets the tokens back: whatever characters stand in
lexemes and strings, and with every finite number bit for bit, since the digits
that are printed round to it.  Only a number that is infinite or no number has
no JSON form; its token comes back without a value.
-/

namespace LoxTokens

/-! ## Tokens from data -/

namespace Json

def field? (name : String) : Json → Option Json
  | .object fields => fields.lookup name
  | _ => none

def toText? : Json → Option String
  | .string text => some text
  | _ => none

/-- A natural number, written as nothing but its digits. -/
def toNat? : Json → Option Nat
  | .number ⟨false, n, 0, none⟩ => some n
  | _ => none

end Json

/-- The value of a token.  A number is read as the nearest binary64 number, and
null says that there is none. -/
def Literal.ofJson? : Json → Option (Option Literal)
  | .null => some none
  | .string value => some (some (.string value))
  | .number numeral => some (some (.number numeral.toBinary64))
  | _ => none

def Span.ofJson? (data : Json) : Option Span := do
  let offset ← (← data.field? "offset").toNat?
  let length ← (← data.field? "len").toNat?
  some ⟨offset, length⟩

namespace Token

def ofJson? (data : Json) : Option Token := do
  let kind ← Kind.ofName? (← (← data.field? "kind").toText?)
  let lexeme ← (← data.field? "lexeme").toText?
  let literal ← Literal.ofJson? (← data.field? "literal")
  let line ← (← data.field? "line").toNat?
  let span ← Span.ofJson? (← data.field? "span")
  some { kind, lexeme, literal, line, span }

def listOfJson? : Json → Option (List Token)
  | .array items => items.mapM ofJson?
  | _ => none

end Token

/-! ## What data keep of a token -/

/-- A value as data tell it, unless it has no JSON form. -/
def Literal.asData? : Literal → Option Literal
  | .number value => if value.isFinite then some (.number value) else none
  | .string value => some (.string value)

/-- A token as data tell it. -/
def Token.asData (token : Token) : Token :=
  { token with literal := token.literal.bind Literal.asData? }

theorem Token.Kind.ofName?_name (kind : Token.Kind) : ofName? kind.name = some kind := by
  cases kind with
  | keyword word => cases word <;> decide
  | _ => decide

/-- A value comes back, and a finite number with all its bits. -/
theorem Literal.ofJson?_toJson (literal : Option Literal) :
    ofJson? ((literal.map toJson).getD .null) = some (literal.bind asData?) := by
  match literal with
  | none => rfl
  | some (.string value) => rfl
  | some (.number value) =>
      show ofJson? (Json.ofBinary64 value) =
        some (if value.isFinite then some (.number value) else none)
      unfold Json.ofBinary64 Binary64.numeral?
      by_cases hfinite : value.isFinite = true
      · have hsame := NumberLayout.data.toBinary64_numeral hfinite
        rw [if_pos hfinite, if_pos hfinite]
        show some (some (Literal.number (NumberLayout.data.numeral value).toBinary64)) = _
        rw [hsame]
      · rw [if_neg hfinite, if_neg hfinite]
        rfl

theorem Span.ofJson?_toJson (span : Span) : ofJson? span.toJson = some span := rfl

namespace Token

theorem ofJson?_toJson (token : Token) : ofJson? token.toJson = some token.asData := by
  have hkind : token.toJson.field? "kind" = some (.string token.kind.name) := rfl
  have hlexeme : token.toJson.field? "lexeme" = some (.string token.lexeme) := rfl
  have hliteral : token.toJson.field? "literal" =
      some ((token.literal.map Literal.toJson).getD .null) := rfl
  have hline : token.toJson.field? "line" = some (.ofNat token.line) := rfl
  have hspan : token.toJson.field? "span" = some token.span.toJson := rfl
  unfold ofJson?
  rw [hkind, hlexeme, hliteral, hline, hspan]
  simp only [Option.bind_eq_bind, Option.bind_some, Json.toText?, Kind.ofName?_name,
    Literal.ofJson?_toJson, Span.ofJson?_toJson]
  rfl

theorem listOfJson?_listToJson (tokens : List Token) :
    listOfJson? (listToJson tokens) = some (tokens.map asData) := by
  show (tokens.map toJson).mapM ofJson? = some (tokens.map asData)
  induction tokens with
  | nil => rfl
  | cons token tokens ih =>
      rw [List.map_cons, List.mapM_cons, ofJson?_toJson, ih]
      rfl

end Token

/-- **Tokens come back from their JSON text.**  In both layouts the text is
JSON; whatever value it is said to write, the tokens that this value holds are
those that were printed, in their order, each with its kind, lexeme, line and
span and with its value as data tell it; and the reader gets them. -/
theorem read_listToJson (tokens : List Token) (layout : Json.Layout)
    (hlayout : layout = .compact ∨ layout = .pretty) :
    Json.Writes ((Token.listToJson tokens).chars layout 0) (.value (Token.listToJson tokens)) ∧
    (∀ value, Json.Writes ((Token.listToJson tokens).chars layout 0) (.value value) →
      Token.listOfJson? value = some (tokens.map Token.asData)) ∧
    (Json.read? ((Token.listToJson tokens).chars layout 0)).bind Token.listOfJson? =
      some (tokens.map Token.asData) := by
  have hblank : layout.IsBlank := by
    rcases hlayout with rfl | rfl
    · exact Json.Layout.isBlank_compact
    · exact Json.Layout.isBlank_pretty
  have hwrites := Json.writes_chars hblank 0 (Token.listToJson tokens)
  have htokens := Token.listOfJson?_listToJson tokens
  refine ⟨hwrites, ?_, ?_⟩
  · intro value hvalue
    rw [hvalue.value_eq hwrites]
    exact htokens
  · rw [hwrites.read?_eq_some]
    exact htokens

/-- A string full of characters to escape, the negative zero and a number that
is none. -/
theorem read_listToJson_escapes :
    let tokens : List Token :=
      [⟨.string, "\"\\\n\u0001😀\"", some (.string "\\\n\u0001😀"), 1, ⟨0, 9⟩⟩,
        ⟨.number, "0", some (.number ⟨true, 0, by decide⟩), 2, ⟨10, 1⟩⟩,
        ⟨.number, "", some (.number ⟨false, Binary64.infinite + 1, by decide⟩),
          18446744073709551615, ⟨18446744073709551615, 0⟩⟩]
    (Json.Layout.pretty = .compact ∨ Json.Layout.pretty = .pretty) ∧
    (Json.read? ((Token.listToJson tokens).chars .pretty 0)).bind Token.listOfJson? =
      some [⟨.string, "\"\\\n\u0001😀\"", some (.string "\\\n\u0001😀"), 1, ⟨0, 9⟩⟩,
        ⟨.number, "0", some (.number ⟨true, 0, by decide⟩), 2, ⟨10, 1⟩⟩,
        ⟨.number, "", none, 18446744073709551615, ⟨18446744073709551615, 0⟩⟩] :=
  ⟨Or.inr rfl, (read_listToJson _ .pretty (Or.inr rfl)).2.2⟩

end LoxTokens
