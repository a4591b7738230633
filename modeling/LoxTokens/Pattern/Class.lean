import LoxTokens.Pattern.Atom
import LoxTokens.Pattern.Depth

/-!
# Classes of characters

A class lists its members in brackets: characters, ranges of them, named sets
of ASCII and further classes.  Lists of members can be joined by operators for
the common part, the difference and the disagreement of two sets.  Hyphens at
the beginning of a class are members, and so is a bracket that would close it
there.
-/

namespace LoxTokens.Pattern

def setNames : List String :=
  ["alnum", "alpha", "ascii", "blank", "cntrl", "digit", "graph", "lower", "print", "punct",
    "space", "upper", "word", "xdigit"]

/-- A named set behind its opening bracket, with whether it is meant the other
way round, and what is behind it. -/
def namedSet? (text : List Char) : Option (Bool × List Char) :=
  match text with
  | ':' :: text =>
    let (others, text) := match text with
      | '^' :: text => (true, text)
      | text => (false, text)
    let (name, text) := text.span (· ≠ ':')
    match text with
    | ':' :: ']' :: text => if setNames.contains (.ofList name) then some (others, text) else none
    | _ => none
  | _ => none

/-- Whether a named set may be a member of a class. -/
def Flags.admitsSet (flags : Flags) (others : Bool) : Bool :=
  if flags.bytewise then !others else !flags.caseless

/-- Whether a class may list what it does not hold. -/
def Flags.admitsComplement (flags : Flags) : Bool := !flags.bytewise

/-- An atom as a member of a class. -/
def memberAtom? (flags : Flags) : List Char → Option (Atom × List Char)
  | [] => none
  | '\\' :: text => Atom.ofEscape? flags text
  | c :: text => some (.character c, text)

/-- What is behind a member that is an atom or a range.  A hyphen makes a range
unless the class or an operator follows it. -/
def behindMember? (flags : Flags) (text : List Char) : Option (List Char) := do
  let (first, text) ← memberAtom? flags text
  guard (first.isMember flags)
  match flags.skip text with
  | '-' :: behind =>
    if flags.peek? behind = some ']' ∨ flags.peek? behind = some '-' then
      return '-' :: behind
    else
      let (last, text) ← memberAtom? flags (flags.skip behind)
      guard (last.isMember flags)
      guard ((← first.char?) ≤ (← last.char?))
      return text
  | text => return text

/-- A class that is being read. -/
structure OpenClass where
  /-- The depths of the members since the last operator. -/
  members : List Nat := []
  /-- The depth of what the last operator stands behind. -/
  left : Option Nat := none
  /-- Whether there have been no members, or only hyphens. -/
  atStart : Bool := true

namespace OpenClass

def depth (c : OpenClass) : Nat :=
  match c.left with
  | none => depthOf c.members
  | some left => depthOf [left, depthOf c.members]

def add (c : OpenClass) (member : Nat) : OpenClass :=
  { c with members := member :: c.members, atStart := false }

def addHyphen (c : OpenClass) : OpenClass := { c with members := 0 :: c.members }

/-- Goes on behind an operator. -/
def combine (c : OpenClass) : OpenClass := { left := some c.depth, atStart := false }

/-- Opens a class behind its bracket, perhaps one that lists what it does not
hold. -/
def begin? (flags : Flags) (text : List Char) : Option (OpenClass × List Char) :=
  match flags.skip text with
  | '^' :: text => if flags.admitsComplement then some ({}, text) else none
  | text => some ({}, text)

/-- Reads a class to its end, with the classes around it.  Yields the depth of
the outermost class and what is behind it. -/
def finish? (flags : Flags) :
    Nat → OpenClass → List OpenClass → List Char → Option (Nat × List Char)
  | 0, _, _, _ => none
  | fuel + 1, inner, around, text =>
    match flags.skip text, inner.atStart with
    | [], _ => none
    | '-' :: text, true =>
      if flags.admits '-' then finish? flags fuel inner.addHyphen around text else none
    | '&' :: '&' :: text, _ => finish? flags fuel inner.combine around text
    | '-' :: '-' :: text, _ => finish? flags fuel inner.combine around text
    | '~' :: '~' :: text, _ => finish? flags fuel inner.combine around text
    | '[' :: text, _ =>
      match namedSet? text with
      | some (others, text) =>
        if flags.admitsSet others then finish? flags fuel (inner.add 0) around text else none
      | none => do
        let (c, text) ← begin? flags text
        finish? flags fuel c ({ inner with atStart := false } :: around) text
    | ']' :: text, atStart =>
      -- a bracket that comes first is a member and closes nothing
      if atStart ∧ inner.members = [] then
        if flags.admits ']' then finish? flags fuel (inner.add 0) around text else none
      else
        match around with
        | [] => some (inner.depth + 1, text)
        | outer :: around => finish? flags fuel (outer.add (inner.depth + 1)) around text
    | c :: text, _ =>
      (behindMember? flags (c :: text)).bind fun text =>
        finish? flags fuel (inner.add 0) around text

end OpenClass

/-- Reads a class behind its opening bracket. -/
def readClass? (flags : Flags) (text : List Char) : Option (Nat × List Char) := do
  let (c, rest) ← OpenClass.begin? flags text
  OpenClass.finish? flags (rest.length + 1) c [] rest

end LoxTokens.Pattern
