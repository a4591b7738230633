import LoxTokens.Log.Rule

/-!
# Filters for a log

A filter is a list of rules.  Of the rules that are about an event the most
special one decides whether it is shown, the later one of two that are equally
special, and where there is none the event is not shown.

As text the rules stand between commas.  A text with a piece that is no rule is
no filter at all, for the reason that the first such piece gives.
-/

namespace LoxTokens.Log

/-- The rules of a filter, in the order in which they are written. -/
abbrev Filter := List Rule

namespace Filter

/-- The filter that shows everything from one level on. -/
def ofLevel (level : Level) : Filter := [{ threshold := some level }]

/-- The filter that a text writes; commas with nothing between them add no
rule. -/
def ofText (text : List Char) : Except Misreading Filter :=
  ((Text.pieces ',' text).filter (!·.isEmpty)).mapM Rule.ofText

/-- The most special of some rules, and the latest of those. -/
def mostSpecial? (rules : List Rule) : Option Rule :=
  rules.foldl (fun best rule => if best.all (·.yieldsTo rule) then some rule else best) none

def deciding? (filter : Filter) (event : Event) : Option Rule :=
  mostSpecial? (filter.filter (·.isAbout event))

def admits (filter : Filter) (event : Event) : Bool :=
  (filter.deciding? event).any fun rule => rule.threshold.admits event.level

theorem admits_ofLevel (level : Level) (event : Event) :
    (ofLevel level).admits event = event.level.shownAt level := by
  simp [admits, deciding?, mostSpecial?, ofLevel, Rule.isAbout, Threshold.admits]

end Filter

/-- The filter of a scan's log.  One that is given as text decides alone; the
level is for when none is given, or one that is not written as a filter.  There
is none at all where a rule of the text is cut through a character. -/
def filterFor? (text : Option String) (level : Level) : Option Filter :=
  match text.map fun text => Filter.ofText text.toList with
  | none => some (.ofLevel level)
  | some (.ok filter) => some filter
  | some (.error .noRule) => some (.ofLevel level)
  | some (.error .cutCharacter) => none

end LoxTokens.Log
