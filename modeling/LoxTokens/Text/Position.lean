import LoxTokens.Text.Measure

/-!
# Positions for people

A report points into the source text by line and column.  Unlike the lines of
tokens, the lines of a report end wherever an editor ends them: at a line feed,
at a carriage return, and once at the pair of both.  The column counts bytes
from the last line end.
-/

namespace LoxTokens.Text

/-- A line and a column, both counted from one. -/
structure Position where
  line : Nat
  column : Nat
  deriving DecidableEq

namespace Position

def first : Position := ⟨1, 1⟩

/-- The position behind a text that begins at the given one. -/
def behind (p : Position) : List Char → Position
  | [] => p
  | '\r' :: '\n' :: text => behind ⟨p.line + 1, 1⟩ text
  | c :: text =>
    if c = '\n' ∨ c = '\r' then behind ⟨p.line + 1, 1⟩ text
    else behind ⟨p.line, p.column + c.utf8Size⟩ text

end Position

/-- The characters of a text that lie before an offset as a whole. -/
def before : List Char → Nat → List Char
  | [], _ => []
  | c :: text, offset =>
    if c.utf8Size ≤ offset then c :: before text (offset - c.utf8Size) else []

/-- The position of an offset in a text. -/
def positionAt (text : List Char) (offset : Nat) : Position :=
  Position.first.behind (before text offset)

theorem before_append (front back : List Char) : before (front ++ back) (bytes front) = front := by
  induction front with
  | nil =>
      cases back with
      | nil => rfl
      | cons c back => exact if_neg (Nat.not_le.mpr c.utf8Size_pos)
  | cons c front ih =>
      rw [List.cons_append, before, bytes_cons, if_pos (Nat.le_add_right _ _),
        Nat.add_sub_cancel_left, ih]

theorem before_isPrefix (text : List Char) (offset : Nat) : before text offset <+: text := by
  induction text generalizing offset with
  | nil => exact List.nil_prefix
  | cons c text ih =>
      rw [before]
      split
      · exact (List.prefix_cons_inj c).mpr (ih _)
      · exact List.nil_prefix

/-- What lies before an offset also lies before every later one. -/
theorem before_isPrefix_before (text : List Char) {first second : Nat} (hle : first ≤ second) :
    before text first <+: before text second := by
  induction text generalizing first second with
  | nil => exact List.prefix_rfl
  | cons c text ih =>
      rw [before, before]
      by_cases hfits : c.utf8Size ≤ first
      · rw [if_pos hfits, if_pos (Nat.le_trans hfits hle), List.prefix_cons_inj]
        exact ih (Nat.sub_le_sub_right hle _)
      · rw [if_neg hfits]
        exact List.nil_prefix

end LoxTokens.Text
