import LoxTokens.Pattern.Outline

/-!
# Values in a log rule

What the value of a field may be asked to be: a number, or what a pattern
matches.  Nothing is compared with it, so it is only told here what can be
asked for at all.
-/

namespace LoxTokens.Log

/-- Whether a text is a number without a sign: digits, perhaps with a point
among them, and perhaps an exponent. -/
def isUnsignedNumber (text : List Char) : Bool :=
  let (digits, exponent) := text.span fun c => c ≠ 'e' && c ≠ 'E'
  digits.any Char.isDigit && digits.all (fun c => c.isDigit || c = '.') && digits.count '.' ≤ 1 &&
    match exponent with
    | [] => true
    | _ :: exponent =>
      let exponent := match exponent with
        | '+' :: exponent => exponent
        | '-' :: exponent => exponent
        | exponent => exponent
      !exponent.isEmpty && exponent.all Char.isDigit

/-- The words that stand for numbers without digits. -/
def numberWords : List String := ["inf", "infinity", "nan"]

/-- Whether a text is a number, in digits or as a word, perhaps with a sign. -/
def isNumber (text : List Char) : Bool :=
  let unsigned := match text with
    | '+' :: text => text
    | '-' :: text => text
    | text => text
  isUnsignedNumber unsigned || numberWords.contains (.ofList (unsigned.map Char.toLower))

def isValue (text : List Char) : Bool := isNumber text || Pattern.isPattern text

end LoxTokens.Log
