import LoxTokens.Json.Basic

/-!
# The JSON notation

Which texts are JSON, and what value each of them writes.  This is the grammar
of the notation in full, not only what a printer makes use of: blanks may stand
around every value, numbers may have an exponent of any form, and characters of
a string may be escaped although they need not be, those beyond sixteen bits as
two units.

A number is written with a sign, whole digits with no zero in front of others,
a fraction and an exponent.  Its value is kept as the numeral, digit by digit.
-/

namespace LoxTokens

/-! ## Numbers -/

namespace Numeral

def IsRun (digits : List Char) : Prop := digits ≠ [] ∧ ∀ c ∈ digits, c.isDigit = true

/-- Digits of which the first is zero only if it is the only one. -/
def IsWhole (digits : List Char) : Prop :=
  IsRun digits ∧ (digits.head? = some '0' → digits = ['0'])

inductive WritesSign : List Char → Bool → Prop
  | plus : WritesSign [] false
  | minus : WritesSign ['-'] true

/-- A fraction and its digits. -/
inductive WritesFraction : List Char → List Char → Prop
  | absent : WritesFraction [] []
  | present {digits} : IsRun digits → WritesFraction ('.' :: digits) digits

/-- The digits of an exponent, with a sign or without. -/
inductive WritesPower : List Char → Int → Prop
  | unsigned {digits} : IsRun digits → WritesPower digits (Nat.ofDigitChars 10 digits 0)
  | plus {digits} : IsRun digits → WritesPower ('+' :: digits) (Nat.ofDigitChars 10 digits 0)
  | minus {digits} : IsRun digits → WritesPower ('-' :: digits) (-Nat.ofDigitChars 10 digits 0)

inductive WritesExponent : List Char → Option Int → Prop
  | absent : WritesExponent [] none
  | present {mark power value} : mark ∈ ['e', 'E'] → WritesPower power value →
      WritesExponent (mark :: power) (some value)

/-- The texts of numbers, with their numerals. -/
inductive Writes : List Char → Numeral → Prop
  | parts {sign negative whole fraction digits mark exponent} : WritesSign sign negative →
      IsWhole whole → WritesFraction fraction digits → WritesExponent mark exponent →
      Writes (sign ++ whole ++ fraction ++ mark) { ofDigits whole digits with negative, exponent }

end Numeral

namespace Json

/-! ## Strings -/

/-- The letters behind a backslash that stand for a single character. -/
def shortEscapes : List (Char × Char) :=
  [('"', '"'), ('\\', '\\'), ('/', '/'), ('b', '\x08'), ('f', '\x0c'), ('n', '\n'), ('r', '\r'),
    ('t', '\t')]

def hexDigit? (c : Char) : Option Nat := "0123456789abcdef".toList.idxOf? c.toLower

/-- The unit of sixteen bits that four hexadecimal digits write. -/
def unit? (a b c d : Char) : Option Nat := do
  let a ← hexDigit? a
  let b ← hexDigit? b
  let c ← hexDigit? c
  let d ← hexDigit? d
  some (((a * 16 + b) * 16 + c) * 16 + d)

def isHighUnit (n : Nat) : Bool := 0xD800 ≤ n && n < 0xDC00

def isLowUnit (n : Nat) : Bool := 0xDC00 ≤ n && n < 0xE000

/-- The code point beyond sixteen bits that two units stand for. -/
def codePoint (high low : Nat) : Nat := 0x10000 + (high - 0xD800) * 0x400 + (low - 0xDC00)

/-- The ways to write a character inside a string. -/
inductive WritesChar : List Char → Char → Prop
  | plain {c} : 32 ≤ c.toNat → c ≠ '"' → c ≠ '\\' → WritesChar [c] c
  | short {letter c} : (letter, c) ∈ shortEscapes → WritesChar ['\\', letter] c
  | unit {a b c d char} : unit? a b c d = some char.toNat →
      WritesChar ['\\', 'u', a, b, c, d] char
  | pair {a b c d e f g h high low char} :
      unit? a b c d = some high → isHighUnit high → unit? e f g h = some low → isLowUnit low →
      codePoint high low = char.toNat →
      WritesChar ['\\', 'u', a, b, c, d, '\\', 'u', e, f, g, h] char

/-- The texts of strings, quotes included. -/
inductive WritesString : List Char → String → Prop
  | quoted {chars : List (List Char × Char)} : (∀ char ∈ chars, WritesChar char.1 char.2) →
      WritesString ('"' :: (chars.flatMap Prod.fst ++ ['"'])) (.ofList (chars.map Prod.snd))

/-! ## Values -/

def isBlank (c : Char) : Bool := c = ' ' || c = '\t' || c = '\n' || c = '\r'

/-- What a stretch of JSON text can stand for. -/
inductive Part
  | value (value : Json)
  | field (key : String) (value : Json)

/-- Texts, each with a comma in front. -/
def behindCommas (texts : List (List Char)) : List Char := texts.flatMap fun text => ',' :: text

/-- The texts of values and of fields, blanks around them included. -/
inductive Writes : List Char → Part → Prop
  | blankBefore {c text part} : isBlank c → Writes text part → Writes (c :: text) part
  | blankBehind {c text part} : isBlank c → Writes text part → Writes (text ++ [c]) part
  | nullWord : Writes ['n', 'u', 'l', 'l'] (.value .null)
  | trueWord : Writes ['t', 'r', 'u', 'e'] (.value (.bool true))
  | falseWord : Writes ['f', 'a', 'l', 's', 'e'] (.value (.bool false))
  | number {text numeral} : Numeral.Writes text numeral → Writes text (.value (.number numeral))
  | string {text value} : WritesString text value → Writes text (.value (.string value))
  | emptyArray {blanks} : (∀ c ∈ blanks, isBlank c) →
      Writes ('[' :: (blanks ++ [']'])) (.value (.array []))
  | array {first : List Char × Json} {others : List (List Char × Json)} :
      (∀ item ∈ first :: others, Writes item.1 (.value item.2)) →
      Writes ('[' :: (first.1 ++ behindCommas (others.map Prod.fst) ++ [']']))
        (.value (.array (first.2 :: others.map Prod.snd)))
  | field {key text name value} : Writes key (.value (.string name)) →
      Writes text (.value value) → Writes (key ++ ':' :: text) (.field name value)
  | emptyObject {blanks} : (∀ c ∈ blanks, isBlank c) →
      Writes ('{' :: (blanks ++ ['}'])) (.value (.object []))
  | object {first : List Char × String × Json} {others : List (List Char × String × Json)} :
      (∀ field ∈ first :: others, Writes field.1 (.field field.2.1 field.2.2)) →
      Writes ('{' :: (first.1 ++ behindCommas (others.map Prod.fst) ++ ['}']))
        (.value (.object (first.2 :: others.map Prod.snd)))

end Json

end LoxTokens
