/-!
# Levels of detail

What a program tells about itself is graded by how much detail it is, and a
reader sets a threshold: the lowest grade to be shown, or none at all.
-/

namespace LoxTokens.Log

/-- The grades, from the gravest to the most detailed. -/
inductive Level where
  | error | warn | info | debug | trace
  deriving DecidableEq

namespace Level

def all : List Level := [error, warn, info, debug, trace]

def rank : Level → Nat
  | error => 1
  | warn => 2
  | info => 3
  | debug => 4
  | trace => 5

def name : Level → String
  | error => "ERROR"
  | warn => "WARN"
  | info => "INFO"
  | debug => "DEBUG"
  | trace => "TRACE"

/-- The grade with this name, in letters of either case. -/
def ofName? (text : List Char) : Option Level :=
  all.find? fun level => level.name.toList = text.map Char.toUpper

def ofRank? (rank : Nat) : Option Level := all.find? fun level => level.rank = rank

/-- The number that a text writes in decimal.  It may begin with a plus sign
and with zeros. -/
def number? (text : List Char) : Option Nat :=
  let digits := if text.head? = some '+' then text.tail else text
  if !digits.isEmpty && digits.all Char.isDigit then some (Nat.ofDigitChars 10 digits 0) else none

/-- The grade that a text names or numbers. -/
def ofText? (text : List Char) : Option Level :=
  match number? text with
  | some rank => ofRank? rank
  | none => ofName? text

/-- Whether something of one grade is shown when another is the lowest shown. -/
def shownAt (level threshold : Level) : Bool := level.rank ≤ threshold.rank

end Level

/-- The lowest grade that is shown; none shows nothing. -/
abbrev Threshold := Option Level

namespace Threshold

/-- The threshold that a text names or numbers, where `off` and zero stand for
none. -/
def ofText? (text : List Char) : Option Threshold :=
  if Level.number? text = some 0 ∨ text.map Char.toUpper = "OFF".toList then some none
  else (Level.ofText? text).map some

/-- Whether a threshold lets a grade through. -/
def admits (threshold : Threshold) (level : Level) : Bool :=
  threshold.any level.shownAt

end Threshold

end LoxTokens.Log
