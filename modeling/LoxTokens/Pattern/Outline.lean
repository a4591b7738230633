import LoxTokens.Pattern.Class
import LoxTokens.Text.Alphanumeric

/-!
# Outline of a pattern

A pattern is made of alternatives, each a sequence of atoms, classes and groups
that may be repeated.  Only its outline is kept here: how deep its parts lie
within each other.  A text is a pattern if it can be read so, and no part lies
too deep.

A repetition by numbers in braces is never read, since the place of a pattern
is such that it cannot hold the closing brace.
-/

namespace LoxTokens.Pattern

structure Part where
  depth : Nat := 0
  /-- A change of flags is a part too, but nothing to be repeated. -/
  repeatable : Bool := true

def depthOfParts (parts : List Part) : Nat := depthOf (parts.map Part.depth)

/-- A group that is being read, or the whole pattern: the alternatives before
the current one, by their depth, and the parts of this one, the last first. -/
structure OpenGroup where
  /-- The flags that hold again behind the group. -/
  flags : Flags := {}
  alternatives : List Nat := []
  parts : List Part := []

namespace OpenGroup

def depth (group : OpenGroup) : Nat :=
  depthOf (depthOfParts group.parts :: group.alternatives)

def add (group : OpenGroup) (part : Part) : OpenGroup :=
  { group with parts := part :: group.parts }

def alternate (group : OpenGroup) : OpenGroup :=
  { group with alternatives := depthOfParts group.parts :: group.alternatives, parts := [] }

/-- Repeats the last part. -/
def repeatLast? (group : OpenGroup) : Option OpenGroup :=
  match group.parts with
  | part :: parts =>
    if part.repeatable then some { group with parts := { depth := part.depth + 1 } :: parts }
    else none
  | [] => none

end OpenGroup

/-- What is known of a pattern that is being read. -/
structure Progress where
  flags : Flags := {}
  /-- The names that groups have been given. -/
  names : List (List Char) := []
  inner : OpenGroup := {}
  around : List OpenGroup := []

namespace Progress

def add (progress : Progress) (part : Part) : Progress :=
  { progress with inner := progress.inner.add part }

/-- Adds an atom if the flags allow it. -/
def addAtom? (progress : Progress) (atom : Atom) : Option Progress :=
  if atom.isAllowed progress.flags then some (progress.add {}) else none

/-! ### Groups -/

def openGroup (progress : Progress) : Progress :=
  { progress with
    inner := { flags := progress.flags }
    around := progress.inner :: progress.around }

def closeGroup? (progress : Progress) : Option Progress :=
  match progress.around with
  | [] => none
  | outer :: around =>
    -- what the group has changed of the flags holds no longer
    some { progress with
      flags := progress.inner.flags
      inner := outer.add { depth := progress.inner.depth + 1 }
      around }

/-- Whether a text can be the name of a group. -/
def isName : List Char → Bool
  | [] => false
  | c :: text =>
    (c = '_' || Text.isAlphabetic c) &&
      text.all fun c => "_.[]".toList.contains c || Text.isAlphanumeric c

/-- Opens a group with a name, which the text begins with. -/
def openNamed? (progress : Progress) (text : List Char) : Option (Progress × List Char) :=
  match text.span (· ≠ '>') with
  | (name, _ :: text) =>
    if isName name ∧ name ∉ progress.names then
      some ({ progress with names := name :: progress.names }.openGroup, text)
    else none
  | (_, []) => none

/-- Changes the flags, as the text says at its beginning, either for the rest
of the group or for a new group. -/
def changeFlags? (progress : Progress) (text : List Char) : Option (Progress × List Char) :=
  let (change, text) := text.span fun c => c ≠ ':' && c ≠ ')'
  let flags := progress.flags.change change
  if !Flags.isChange change then none
  else
    match text with
    | ':' :: text => some ({ progress.openGroup with flags }, text)
    | ')' :: text =>
      if change.isEmpty then none
      else some ({ progress with flags }.add { repeatable := false }, text)
    | _ => none

/-- Reads on behind an opening parenthesis. -/
def afterParenthesis? (progress : Progress) (text : List Char) : Option (Progress × List Char) :=
  match progress.flags.skip text with
  | '?' :: 'P' :: '<' :: text => progress.openNamed? text
  | '?' :: '<' :: text => progress.openNamed? text
  | '?' :: text => progress.changeFlags? text
  | text => some (progress.openGroup, text)

/-! ### The whole -/

/-- Reads one part of a pattern, or one sign between parts, and yields what is
behind it. -/
def step? (progress : Progress) : List Char → Option (Progress × List Char)
  | [] => none
  | '(' :: text => progress.afterParenthesis? text
  | ')' :: text => progress.closeGroup?.map fun progress => (progress, text)
  | '|' :: text => some ({ progress with inner := progress.inner.alternate }, text)
  | '[' :: text =>
    (readClass? progress.flags text).map fun (depth, text) => (progress.add { depth }, text)
  | '\\' :: text => do
    let (atom, text) ← Atom.ofEscape? progress.flags text
    return (← progress.addAtom? atom, text)
  | '\x7b' :: _ => none
  | c :: text =>
    if c = '*' ∨ c = '+' ∨ c = '?' then do
      let inner ← progress.inner.repeatLast?
      -- a question mark behind a repetition belongs to it
      return ({ progress with inner }, match text with
        | '?' :: text => text
        | text => text)
    else
      let atom : Atom :=
        if c = '.' then .wildcard else if c = '^' ∨ c = '$' then .edge else .character c
      (progress.addAtom? atom).map fun progress => (progress, text)

/-- Reads a pattern to its end and yields its depth. -/
def finish? : Nat → Progress → List Char → Option Nat
  | 0, _, _ => none
  | fuel + 1, progress, text =>
    match progress.flags.skip text with
    | [] => if progress.around.isEmpty then some progress.inner.depth else none
    | text => (progress.step? text).bind fun (progress, text) => finish? fuel progress text

end Progress

def depth? (text : List Char) : Option Nat := Progress.finish? (text.length + 1) {} text

/-- How deep a part of a pattern may lie. -/
def greatestDepth : Nat := 250

def isPattern (text : List Char) : Bool := (depth? text).any (· ≤ greatestDepth)

end LoxTokens.Pattern
