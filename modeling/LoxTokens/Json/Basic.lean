import LoxTokens.Decimal.Layout

/-!
# JSON values

Data as JSON knows it.  A number is kept as the numeral that is written, so a
value says exactly what its text is, up to the blanks between its parts, and
nothing is lost on whole numbers too large for a binary64 number.
-/

namespace LoxTokens

/-- A JSON value.  The fields of an object keep their order. -/
inductive Json where
  | null
  | bool (value : Bool)
  | number (numeral : Numeral)
  | string (text : String)
  | array (items : List Json)
  | object (fields : List (String × Json))

namespace Json

def ofNat (n : Nat) : Json := .number (.ofNat n)

/-- A binary64 number as a JSON value, which is null unless it is finite. -/
def ofBinary64 (x : Binary64) : Json := (x.numeral?.map .number).getD .null

end Json

end LoxTokens
