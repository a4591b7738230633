import LoxTokens.Text.Measure

/-!
# Parts of a text by their bytes

A part of a text that is given by offsets in bytes of UTF-8.  There is such a
part only if both offsets lie between two characters.
-/

namespace LoxTokens.Text

/-- The first bytes of a text. -/
def firstBytes? : List Char → Nat → Option (List Char)
  | _, 0 => some []
  | [], _ + 1 => none
  | c :: text, count + 1 =>
    if c.utf8Size ≤ count + 1 then (firstBytes? text (count + 1 - c.utf8Size)).map (c :: ·)
    else none

/-- What is behind the first bytes of a text. -/
def behindBytes? : List Char → Nat → Option (List Char)
  | text, 0 => some text
  | [], _ + 1 => none
  | c :: text, count + 1 =>
    if c.utf8Size ≤ count + 1 then behindBytes? text (count + 1 - c.utf8Size) else none

/-- The part of a text from one offset to another. -/
def slice? (text : List Char) (start stop : Nat) : Option (List Char) :=
  (behindBytes? text start).bind fun rest => firstBytes? rest (stop - start)

theorem firstBytes?_append (before after : List Char) :
    firstBytes? (before ++ after) (bytes before) = some before := by
  induction before with
  | nil => cases after <;> rfl
  | cons c before ih =>
    have positive := c.utf8Size_pos
    obtain ⟨count, size⟩ : ∃ count, c.utf8Size + bytes before = count + 1 :=
      ⟨c.utf8Size + bytes before - 1, by omega⟩
    have fits : c.utf8Size ≤ count + 1 := by omega
    have rest : count + 1 - c.utf8Size = bytes before := by omega
    rw [List.cons_append, bytes_cons, size, firstBytes?, if_pos fits, rest, ih]
    rfl

theorem behindBytes?_append (before after : List Char) :
    behindBytes? (before ++ after) (bytes before) = some after := by
  induction before with
  | nil => cases after <;> rfl
  | cons c before ih =>
    have positive := c.utf8Size_pos
    obtain ⟨count, size⟩ : ∃ count, c.utf8Size + bytes before = count + 1 :=
      ⟨c.utf8Size + bytes before - 1, by omega⟩
    have fits : c.utf8Size ≤ count + 1 := by omega
    have rest : count + 1 - c.utf8Size = bytes before := by omega
    rw [List.cons_append, bytes_cons, size, behindBytes?, if_pos fits, rest, ih]

/-- Offsets that are measured on the text itself cut out what they were
measured around. -/
theorem slice?_append (before part after : List Char) :
    slice? (before ++ part ++ after) (bytes before) (bytes before + bytes part) = some part := by
  rw [slice?, List.append_assoc, behindBytes?_append, Option.bind_some, Nat.add_sub_cancel_left,
    firstBytes?_append]

end LoxTokens.Text
