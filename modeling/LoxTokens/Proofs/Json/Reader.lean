import LoxTokens.Proofs.Json.Grammar

/-!
# A reader of JSON

A reader for the whole notation.  Every part of it reads from the front of a
text and gives what it found together with the rest of the text; blanks are
passed over in front of a value and behind it.

Sequences are read by one function, which gets to know how to read an item and
with which bracket to close.  A value within others is read with less depth than
these, and the length of the text is depth enough.
-/

namespace LoxTokens

namespace Numeral

def readSign : List Char → Bool × List Char
  | '-' :: text => (true, text)
  | text => (false, text)

def readRun? (text : List Char) : Option (List Char × List Char) :=
  let digits := text.takeWhile Char.isDigit
  if digits = [] then none else some (digits, text.dropWhile Char.isDigit)

def readFraction? : List Char → Option (List Char × List Char)
  | '.' :: text => readRun? text
  | text => some ([], text)

def readPowerSign : List Char → Bool × List Char
  | '+' :: text => (false, text)
  | '-' :: text => (true, text)
  | text => (false, text)

def readPower? (text : List Char) : Option (Int × List Char) := do
  let (negative, text) := readPowerSign text
  let (digits, text) ← readRun? text
  let power := Nat.ofDigitChars 10 digits 0
  some (if negative then -power else power, text)

def readExponent? : List Char → Option (Option Int × List Char)
  | mark :: text =>
    if mark ∈ ['e', 'E'] then do
      let (value, text) ← readPower? text
      some (some value, text)
    else some (none, mark :: text)
  | [] => some (none, [])

def read? (text : List Char) : Option (Numeral × List Char) := do
  let (negative, text) := readSign text
  let (whole, text) ← readRun? text
  guard (whole.head? = some '0' → whole = ['0'])
  let (digits, text) ← readFraction? text
  let (exponent, text) ← readExponent? text
  some ({ ofDigits whole digits with negative, exponent }, text)

end Numeral

namespace Json

def skipBlanks (text : List Char) : List Char := text.dropWhile isBlank

def readChar? : List Char → Option (Char × List Char)
  | '\\' :: 'u' :: a :: b :: c :: d :: text => do
    let high ← unit? a b c d
    if isHighUnit high then
      match text with
      | '\\' :: 'u' :: a :: b :: c :: d :: text => do
        let low ← unit? a b c d
        if isLowUnit low then some (.ofNat (codePoint high low), text) else none
      | _ => none
    else if isLowUnit high then none
    else some (.ofNat high, text)
  | '\\' :: letter :: text => (shortEscapes.lookup letter).map fun c => (c, text)
  | c :: text => if 32 ≤ c.toNat ∧ c ≠ '"' ∧ c ≠ '\\' then some (c, text) else none
  | [] => none

/-- Reads the characters of a string up to its second quote. -/
def readChars? : Nat → List Char → Option (List Char × List Char)
  | 0, _ => none
  | fuel + 1, text =>
    match readChar? text with
    | some (c, text) => do
      let (chars, text) ← readChars? fuel text
      some (c :: chars, text)
    | none =>
      match text with
      | '"' :: text => some ([], text)
      | _ => none

section Sequence

variable {α : Type} (read? : List Char → Option (α × List Char)) (close : Char)

/-- Reads what follows the first item of a sequence, up to its closing
bracket. -/
def readOthers? : Nat → List Char → Option (List α × List Char)
  | fuel + 1, c :: text =>
    if c = close then some ([], text)
    else if c = ',' then do
      let (item, text) ← read? text
      let (items, text) ← readOthers? fuel text
      some (item :: items, text)
    else none
  | _, _ => none

/-- Reads a sequence behind its opening bracket. -/
def readSequence? (text : List Char) : Option (List α × List Char) :=
  match read? text with
  | some (first, text) => do
    let (others, text) ← readOthers? read? close text.length text
    some (first :: others, text)
  | none =>
    match skipBlanks text with
    | c :: text => if c = close then some ([], text) else none
    | [] => none

end Sequence

/-- Reads blanks, a value and blanks, given how to read a value. -/
def readPadded? (read? : List Char → Option (Json × List Char)) (text : List Char) :
    Option (Json × List Char) :=
  (read? (skipBlanks text)).map fun (value, text) => (value, skipBlanks text)

/-- Reads a field, given how to read a value. -/
def readField? (read? : List Char → Option (Json × List Char)) (text : List Char) :
    Option ((String × Json) × List Char) :=
  match readPadded? read? text with
  | some (.string name, ':' :: text) =>
    (readPadded? read? text).map fun (value, text) => ((name, value), text)
  | _ => none

/-- Reads a value in which no more than `depth` values are held by one
another. -/
def readValue? : Nat → List Char → Option (Json × List Char)
  | 0, _ => none
  | depth + 1, text =>
    match text with
    | 'n' :: 'u' :: 'l' :: 'l' :: text => some (.null, text)
    | 't' :: 'r' :: 'u' :: 'e' :: text => some (.bool true, text)
    | 'f' :: 'a' :: 'l' :: 's' :: 'e' :: text => some (.bool false, text)
    | '"' :: text =>
      (readChars? text.length text).map fun (chars, text) => (.string (.ofList chars), text)
    | '[' :: text =>
      (readSequence? (readPadded? (readValue? depth)) ']' text).map
        fun (items, text) => (.array items, text)
    | '{' :: text =>
      (readSequence? (readField? (readValue? depth)) '}' text).map
        fun (fields, text) => (.object fields, text)
    | text => (Numeral.read? text).map fun (numeral, text) => (.number numeral, text)

/-- The value of a whole text. -/
def read? (text : List Char) : Option Json :=
  match readPadded? (readValue? text.length) text with
  | some (value, []) => some value
  | _ => none

end Json

end LoxTokens
