import LoxTokens.Proofs.Cursor.Moves

/-!
# Runs taken one character at a time

A cursor takes a whole run at once, and it looks at the next two characters without taking
them.  Neither goes beyond what single characters would tell: what a cursor shows is what
it would hand over, and a run is what the following loop takes.

```text
while the next character belongs: take it and put it behind the run
```

`takeSingly` is this loop.  A run begins with the next character if that belongs, and goes
on as the run behind it (`takeRun_of_peek?_eq_some`), so the loop and the run agree by
induction on the loop, whatever has been taken before.
-/

namespace LoxTokens

open Text

namespace Text

/-- The longest run of characters of a set with which a text begins. -/
structure IsLongestRun (belongs : Char → Bool) (text run : List Char) : Prop where
  isPrefix : run <+: text
  forall_mem : ∀ c ∈ run, belongs c = true
  longest : ∀ other, other <+: text → (∀ c ∈ other, belongs c = true) → other <+: run

theorem isLongestRun_takeWhile (belongs : Char → Bool) (text : List Char) :
    IsLongestRun belongs text (text.takeWhile belongs) where
  isPrefix := List.takeWhile_prefix belongs
  forall_mem := forall_mem_takeWhile text
  longest := by
    rintro other ⟨behind, rfl⟩ hother
    -- both begin the text, so the shorter one begins the longer one
    have hsame := (List.takeWhile_append_dropWhile (p := belongs) (l := other ++ behind)).symm
    have hle := length_le_of_stops hother (stops_dropWhile (other ++ behind)) hsame
    exact List.prefix_of_prefix_length_le (List.prefix_append _ _) (List.takeWhile_prefix _) hle

end Text

namespace Cursor

/-! ## Looking and taking -/

theorem peek?_eq_takeChar (cursor : Cursor) : cursor.peek? = cursor.takeChar.1 := by
  unfold peek? takeChar
  cases cursor.unread <;> rfl

theorem peekSecond?_eq_takeChar (cursor : Cursor) :
    cursor.peekSecond? = cursor.takeChar.2.takeChar.1 := by
  rw [← peek?_eq_takeChar, peek?, takeChar_unread, peekSecond?]

theorem atEnd_iff_peek?_eq_none (cursor : Cursor) :
    cursor.atEnd = true ↔ cursor.peek? = none := by
  simp [atEnd, peek?]

theorem unread_of_peek?_eq_some {cursor : Cursor} {c : Char} (hpeek : cursor.peek? = some c) :
    cursor.unread = c :: cursor.takeChar.2.unread := by
  obtain ⟨rest, hunread⟩ := List.head?_eq_some_iff.mp hpeek
  rw [takeChar_unread, hunread]
  rfl

/-! ## Runs -/

/-- Takes a run one character at a time: as long as the next character belongs, it is taken
and put behind what there is of the run. -/
def takeSingly (cursor : Cursor) (belongs : Char → Bool) (run : List Char) :
    List Char × Cursor :=
  match _hpeek : cursor.peek? with
  | none => (run, cursor)
  | some c =>
    if belongs c then cursor.takeChar.2.takeSingly belongs (run ++ [c]) else (run, cursor)
termination_by cursor.unread.length
decreasing_by
  rw [unread_of_peek?_eq_some _hpeek]
  exact Nat.lt_succ_self _

variable {cursor : Cursor} {belongs : Char → Bool}

/-- A run that the next character belongs to begins with it. -/
theorem takeRun_of_peek?_eq_some {c : Char} (hpeek : cursor.peek? = some c)
    (hbelongs : belongs c = true) :
    cursor.takeRun belongs =
      (c :: (cursor.takeChar.2.takeRun belongs).1, (cursor.takeChar.2.takeRun belongs).2) := by
  obtain ⟨rest, hunread⟩ := List.head?_eq_some_iff.mp hpeek
  simp [takeRun, takeChar_of_unread hunread, take, hunread, hbelongs]

/-- Where no next character belongs, no run is taken. -/
theorem takeRun_of_forall_peek? (hstop : ∀ c ∈ cursor.peek?, belongs c = false) :
    cursor.takeRun belongs = ([], cursor) := by
  rw [takeRun_of_unread (List.nil_append _).symm (by simp) hstop, take_nil rfl]

theorem takeSingly_eq_append (cursor : Cursor) (belongs : Char → Bool) (run : List Char) :
    cursor.takeSingly belongs run =
      (run ++ (cursor.takeRun belongs).1, (cursor.takeRun belongs).2) := by
  fun_induction takeSingly cursor belongs run with
  | case1 cursor run hpeek =>
      have hstop : ∀ c ∈ cursor.peek?, belongs c = false := by simp [hpeek]
      rw [takeRun_of_forall_peek? hstop, List.append_nil]
  | case2 cursor run c hpeek hbelongs ih =>
      rw [ih, takeRun_of_peek?_eq_some hpeek hbelongs, List.append_assoc, List.singleton_append]
  | case3 cursor run c hpeek hbelongs =>
      have hstop : ∀ c ∈ cursor.peek?, belongs c = false := by simpa [hpeek] using hbelongs
      rw [takeRun_of_forall_peek? hstop, List.append_nil]

/-- Behind a run there is nothing, or a character that does not belong to it. -/
theorem atEnd_or_peek?_takeRun (cursor : Cursor) (belongs : Char → Bool) :
    (cursor.takeRun belongs).2.atEnd = true ∨
      ∃ c, (cursor.takeRun belongs).2.peek? = some c ∧ belongs c = false := by
  rw [atEnd_iff_peek?_eq_none]
  cases hpeek : (cursor.takeRun belongs).2.peek? with
  | none => exact .inl rfl
  | some c => exact .inr ⟨c, rfl, stops_dropWhile cursor.unread c hpeek⟩

/-- **A run is taken as its characters would be, one by one.**  From any cursor, and so from
any to which moves can lead, the run is the one that the loop takes that looks at a
character, takes it and looks again, and the loop leaves the same cursor.  It is the longest
run with which the unread text begins, and behind it there is nothing or a character that
does not belong.  What a cursor shows of the next two characters is what it would hand over
if it took them, it is at the end if it shows nothing, and it accepts a character by taking
it if it is shown. -/
theorem takeRun_singly (cursor : Cursor) (belongs : Char → Bool) (expected : Char) :
    cursor.takeRun belongs = cursor.takeSingly belongs [] ∧
    IsLongestRun belongs cursor.unread (cursor.takeRun belongs).1 ∧
    cursor.unread = (cursor.takeRun belongs).1 ++ (cursor.takeRun belongs).2.unread ∧
    ((cursor.takeRun belongs).2.atEnd = true ∨
      ∃ c, (cursor.takeRun belongs).2.peek? = some c ∧ belongs c = false) ∧
    cursor.peek? = cursor.takeChar.1 ∧
    cursor.peekSecond? = cursor.takeChar.2.takeChar.1 ∧
    (cursor.atEnd = true ↔ cursor.peek? = none) ∧
    cursor.accept expected =
      if cursor.peek? = some expected then (true, cursor.takeChar.2) else (false, cursor) :=
  ⟨(cursor.takeSingly_eq_append belongs []).symm, isLongestRun_takeWhile _ _,
    List.takeWhile_append_dropWhile.symm, cursor.atEnd_or_peek?_takeRun belongs,
    cursor.peek?_eq_takeChar, cursor.peekSecond?_eq_takeChar, cursor.atEnd_iff_peek?_eq_none, rfl⟩

end Cursor

end LoxTokens
