import LoxTokens.Pattern.Flags

/-!
# Single characters in a pattern

The least parts of a pattern: characters that stand for themselves, also spelled
out behind a backslash, and signs for sets of characters and for places between
them.

What is allowed depends on the flags.  Sets of characters by their kind, the
case of letters, and the edges of words are only known for ASCII, which is to
say bytewise.  In return a bytewise pattern must not stand for a byte that is
no ASCII character, because it could then match a part of a character.
-/

namespace LoxTokens.Pattern

/-- The least parts of a pattern. -/
inductive Atom where
  /-- A character for itself. -/
  | character (c : Char)
  /-- A character by a number of two digits, which bytewise is a byte. -/
  | byte (c : Char)
  /-- All characters of a kind (digits, blanks, word characters), or all
  others. -/
  | kind (others : Bool)
  /-- Every character, a line end perhaps excepted. -/
  | wildcard
  /-- The beginning or the end of a text or line. -/
  | edge
  /-- A place that is, or is not, at the beginning or the end of a word. -/
  | wordEdge
  deriving DecidableEq

/-- Whether a character may be a member of a class. -/
def Flags.admits (flags : Flags) (c : Char) : Bool :=
  if flags.bytewise then c.toNat < 0x80 else !flags.caseless

namespace Atom

/-- Whether an atom may stand in a sequence. -/
def isAllowed (flags : Flags) : Atom → Bool
  | character _ => flags.bytewise || !flags.caseless
  | byte c => flags.admits c
  | kind others => flags.bytewise && !others
  | wildcard => !flags.bytewise
  | edge => true
  | wordEdge => flags.bytewise

/-- Whether an atom may stand in a class. -/
def isMember (flags : Flags) : Atom → Bool
  | character c => flags.admits c
  | byte c => flags.admits c
  | kind others => flags.bytewise && !others
  | _ => false

def char? : Atom → Option Char
  | character c => some c
  | byte c => some c
  | _ => none

/-! ### Behind a backslash -/

def hexDigit? (c : Char) : Option Nat :=
  if c.isDigit then some (c.toNat - '0'.toNat)
  else if 'a' ≤ c ∧ c ≤ 'f' then some (c.toNat - 'a'.toNat + 10)
  else if 'A' ≤ c ∧ c ≤ 'F' then some (c.toNat - 'A'.toNat + 10)
  else none

/-- A number of so many hexadecimal digits, with `value` for the digits before
it, and what is behind it. -/
def hexNumber? (flags : Flags) : Nat → Nat → List Char → Option (Nat × List Char)
  | 0, value, text => some (value, text)
  | count + 1, value, text =>
    match flags.skip text with
    | [] => none
    | c :: text =>
      (hexDigit? c).bind fun digit => hexNumber? flags count (16 * value + digit) text

def numbered? (flags : Flags) (count : Nat) (text : List Char) : Option (Char × List Char) :=
  (hexNumber? flags count 0 text).bind fun (value, text) =>
    if value.isValidChar then some (Char.ofNat value, text) else none

/-- The control characters that a letter stands for. -/
def control? : Char → Option Char
  | 'a' => some '\x07'
  | 'f' => some '\x0c'
  | 'n' => some '\n'
  | 'r' => some '\r'
  | 't' => some '\t'
  | 'v' => some '\x0b'
  | _ => none

/-- The atom that a text writes behind a backslash, and what is behind it.  A
sign of ASCII stands for itself there, letters and digits only have the
meanings listed.  Properties of characters are not known, so the letters for
them are not among these. -/
def ofEscape? (flags : Flags) : List Char → Option (Atom × List Char)
  | [] => none
  | 'x' :: text => (numbered? flags 2 text).map fun (c, text) => (byte c, text)
  | 'u' :: text => (numbered? flags 4 text).map fun (c, text) => (character c, text)
  | 'U' :: text => (numbered? flags 8 text).map fun (c, text) => (character c, text)
  | c :: text =>
    if "dsw".toList.contains c then some (kind false, text)
    else if "DSW".toList.contains c then some (kind true, text)
    else if "Az".toList.contains c then some (edge, text)
    else if "bB<>".toList.contains c then some (wordEdge, text)
    else if c.toNat < 0x80 ∧ ¬ c.isAlphanum then some (character c, text)
    else (control? c).map fun c => (character c, text)

end Atom

end LoxTokens.Pattern
