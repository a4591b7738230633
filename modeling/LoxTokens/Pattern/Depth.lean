/-!
# Depth of a pattern

How deep the parts of a pattern lie within each other.  A group, a class and a
repetition lie one deeper than what they hold; so do several things side by
side, but a single one is no more than itself.
-/

namespace LoxTokens.Pattern

/-- The depth of things side by side, from the depth of each. -/
def depthOf : List Nat → Nat
  | [] => 0
  | [depth] => depth
  | depth :: others => others.foldl max depth + 1

end LoxTokens.Pattern
