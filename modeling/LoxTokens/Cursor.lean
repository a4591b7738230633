import LoxTokens.Text.Measure
import LoxTokens.Token.Basic

/-!
# A cursor over a source text

A cursor stands between what has been read of a text and what has not.  It
knows where the lexeme under way began, what has been taken into that lexeme,
and how many lines it has been told of; its place in the text is the start of
the lexeme and the bytes taken since.  Taking characters moves them from
`unread` to `taken`, and nothing else touches either.
-/

namespace LoxTokens

/-- A place in a source text, with the lexeme that is being read there. -/
structure Cursor where
  /-- The offset at which the lexeme begins. -/
  start : Nat
  /-- The characters of the lexeme so far, the latest first. -/
  taken : List Char
  /-- The characters still to be read. -/
  unread : List Char
  /-- The current line, counted from one. -/
  line : Nat

namespace Cursor

def atStart (text : List Char) : Cursor where
  start := 0
  taken := []
  unread := text
  line := 1

/-! ### What a cursor shows -/

def atEnd (cursor : Cursor) : Bool := cursor.unread.isEmpty

def offset (cursor : Cursor) : Nat := cursor.start + Text.bytes cursor.taken

def peek? (cursor : Cursor) : Option Char := cursor.unread.head?

/-- The character after the next one. -/
def peekSecond? (cursor : Cursor) : Option Char := cursor.unread.tail.head?

/-- The characters of the lexeme, in the order of the text. -/
def lexemeChars (cursor : Cursor) : List Char := cursor.taken.reverse

def lexeme (cursor : Cursor) : String := .ofList cursor.lexemeChars

def span (cursor : Cursor) : Span := ⟨cursor.start, Text.bytes cursor.taken⟩

/-! ### How a cursor moves -/

/-- Begins a new lexeme where the cursor stands. -/
def mark (cursor : Cursor) : Cursor := { cursor with start := cursor.offset, taken := [] }

def newlines (cursor : Cursor) (count : Nat) : Cursor :=
  { cursor with line := cursor.line + count }

/-- Takes one character, unless there is none. -/
def takeChar (cursor : Cursor) : Option Char × Cursor :=
  match cursor.unread with
  | [] => (none, cursor)
  | c :: rest => (some c, { cursor with taken := c :: cursor.taken, unread := rest })

/-- Takes the next character if it is the expected one. -/
def accept (cursor : Cursor) (expected : Char) : Bool × Cursor :=
  if cursor.peek? = some expected then (true, cursor.takeChar.2) else (false, cursor)

/-- Takes the longest run of characters that belong to a set. -/
def takeRun (cursor : Cursor) (belongs : Char → Bool) : List Char × Cursor :=
  let run := cursor.unread.takeWhile belongs
  (run, { cursor with
    taken := run.reverse ++ cursor.taken
    unread := cursor.unread.dropWhile belongs })

/-! ### Moves as data -/

/-- One of the ways a cursor moves. -/
inductive Move where
  | mark
  | newline
  | takeChar
  | accept (expected : Char)
  | takeRun (belongs : Char → Bool)

inductive Reply where
  | nothing
  | character (taken : Option Char)
  | accepted (taken : Bool)
  | run (taken : List Char)

def perform (cursor : Cursor) : Move → Reply × Cursor
  | .mark => (.nothing, cursor.mark)
  | .newline => (.nothing, cursor.newlines 1)
  | .takeChar => (.character cursor.takeChar.1, cursor.takeChar.2)
  | .accept expected => (.accepted (cursor.accept expected).1, (cursor.accept expected).2)
  | .takeRun belongs => (.run (cursor.takeRun belongs).1, (cursor.takeRun belongs).2)

/-! ### Moving never unreads -/

theorem takeChar_unread (cursor : Cursor) : cursor.takeChar.2.unread = cursor.unread.tail := by
  unfold takeChar
  split <;> simp_all

theorem takeChar_unread_length_le (cursor : Cursor) :
    cursor.takeChar.2.unread.length ≤ cursor.unread.length := by
  simp [takeChar_unread]

theorem accept_unread_length_le (cursor : Cursor) (expected : Char) :
    (cursor.accept expected).2.unread.length ≤ cursor.unread.length := by
  unfold accept
  split
  · exact cursor.takeChar_unread_length_le
  · exact Nat.le_refl _

theorem takeRun_unread_length_le (cursor : Cursor) (belongs : Char → Bool) :
    (cursor.takeRun belongs).2.unread.length ≤ cursor.unread.length :=
  (List.dropWhile_sublist belongs).length_le

end Cursor

end LoxTokens
