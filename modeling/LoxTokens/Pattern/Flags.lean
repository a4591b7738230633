import LoxTokens.Text.Blank

/-!
# Flags of a pattern

A pattern is a regular expression.  It can set and take back flags for the rest
of the group that it is in.  Three of them decide what a pattern may hold:
whether the case of letters is ignored, whether it is about bytes instead of
characters, and whether it is spaced out, so that blanks between its parts and
remarks after a number sign are passed over.
-/

namespace LoxTokens.Pattern

structure Flags where
  caseless : Bool := false
  bytewise : Bool := false
  spaced : Bool := false
  deriving DecidableEq

mutual

/-- What is behind blanks and remarks. -/
def skipBlanks : List Char → List Char
  | [] => []
  | c :: text =>
    if Text.isBlank c then skipBlanks text
    else if c = '#' then skipRemark text
    else c :: text

/-- What is behind the rest of a remark, which ends with its line, and behind
what is passed over after that. -/
def skipRemark : List Char → List Char
  | [] => []
  | c :: text => if c = '\n' then skipBlanks text else skipRemark text

end

namespace Flags

/-- The letters of all flags.  `u` is set as long as the pattern is about
characters; `m`, `s`, `U` and `R` only change what is matched. -/
def letters : List Char := "imsUuRx".toList

/-- Whether a text writes a change of flags: letters of flags to be set, and
perhaps a hyphen and letters of flags to be taken back, none of them twice. -/
def isChange (text : List Char) : Bool :=
  text.all (fun c => (c = '-' || letters.contains c) && text.count c = 1) &&
    text.getLast? ≠ some '-'

def change (flags : Flags) (text : List Char) : Flags :=
  let (on, off) := text.span (· ≠ '-')
  let state (letter : Char) (before : Bool) :=
    on.contains letter || (before && !off.contains letter)
  { caseless := state 'i' flags.caseless
    bytewise := !state 'u' !flags.bytewise
    spaced := state 'x' flags.spaced }

/-- What is left of a text when all that these flags pass over is left out at
its beginning. -/
def skip (flags : Flags) (text : List Char) : List Char :=
  if flags.spaced then skipBlanks text else text

/-- The character to be expected behind a hyphen.  A remark is not passed over
here, but only its sign and the blanks around that. -/
def peek? (flags : Flags) (text : List Char) : Option Char :=
  if flags.spaced then
    match text.dropWhile Text.isBlank with
    | '#' :: remark => (remark.dropWhile Text.isBlank).head?
    | text => text.head?
  else text.head?

end Flags

end LoxTokens.Pattern
