import LoxTokens.Proofs.Lexicon.Reader
import LoxTokens.Proofs.Positions.Order
import LoxTokens.Text.Slice

/-!
# Cursors on their way

A cursor goes through a text by moves of five kinds, in any order.  Whatever the moves
are, it stays true to its text: what its replies have told, one behind the other, is the
text up to where it stands, and its lexeme is the end of that.

A move marks, or counts a line, or takes a text from the front of what is unread, perhaps
the empty one (`perform_cases`).  `HasTaken` is what each of them keeps, and from it follow
all statements about places: they are sums over whole characters, so that none of them
lies within a character.  Any two places of a source are those of such a cursor
(`exists_hasTaken_iff`).
-/

namespace LoxTokens

open Text

namespace Cursor

/-! ## Moves and what they tell -/

def Move.isNewline : Move → Bool
  | .newline => true
  | _ => false

/-- The text that a move has taken, by its reply. -/
def Move.textTaken : Move → Reply → List Char
  | .takeChar, .character taken => taken.toList
  | .accept expected, .accepted true => [expected]
  | .takeRun _, .run taken => taken
  | _, _ => []

theorem Move.textTaken_nothing (move : Move) : move.textTaken .nothing = [] := by
  cases move <;> rfl

/-- Replies of moves that were to take something and took nothing. -/
inductive Reply.IsRefusal : Reply → Prop
  | character : IsRefusal (.character none)
  | accepted : IsRefusal (.accepted false)
  | run : IsRefusal (.run [])

/-- A cursor after some moves. -/
def after (cursor : Cursor) (moves : List Move) : Cursor :=
  moves.foldl (fun cursor move => (cursor.perform move).2) cursor

/-- What the replies to some moves tell, one behind the other. -/
def textTakenBy (cursor : Cursor) : List Move → List Char
  | [] => []
  | move :: moves =>
    move.textTaken (cursor.perform move).1 ++ (cursor.perform move).2.textTakenBy moves

theorem after_cons (cursor : Cursor) (move : Move) (moves : List Move) :
    cursor.after (move :: moves) = (cursor.perform move).2.after moves :=
  rfl

theorem after_append (cursor : Cursor) (moves later : List Move) :
    cursor.after (moves ++ later) = (cursor.after moves).after later :=
  List.foldl_append

theorem take_nil {cursor : Cursor} {rest : List Char} (hunread : cursor.unread = rest) :
    cursor.take [] rest = cursor := by
  rw [← hunread]
  rfl

theorem take_offset (cursor : Cursor) (text rest : List Char) :
    (cursor.take text rest).offset = cursor.offset + bytes text := by
  simp only [offset, take, bytes_append, bytes_reverse]
  omega

theorem mark_offset (cursor : Cursor) : cursor.mark.offset = cursor.offset := by
  simp [offset, mark]

/-! ## One move -/

/-- All that a move can do: it marks, or it counts a line, or it takes what it tells. -/
theorem perform_cases (cursor : Cursor) (move : Move) :
    (move = .mark ∧ cursor.perform move = (.nothing, cursor.mark)) ∨
    (move = .newline ∧ cursor.perform move = (.nothing, cursor.newlines 1)) ∨
    ∃ text rest, move.isNewline = false ∧ cursor.unread = text ++ rest ∧
      move.textTaken (cursor.perform move).1 = text ∧
      (cursor.perform move).2 = cursor.take text rest := by
  cases move with
  | mark => exact .inl ⟨rfl, rfl⟩
  | newline => exact .inr (.inl ⟨rfl, rfl⟩)
  | takeChar =>
      refine .inr (.inr ?_)
      cases hunread : cursor.unread with
      | nil =>
          have hmove : cursor.perform .takeChar = (.character none, cursor) := by
            simp [perform, takeChar, hunread]
          rw [hmove]
          exact ⟨[], [], rfl, rfl, rfl, (take_nil hunread).symm⟩
      | cons c rest =>
          have hmove : cursor.perform .takeChar = (.character (some c), cursor.take [c] rest) := by
            rw [perform, takeChar_of_unread hunread]
          rw [hmove]
          exact ⟨[c], rest, rfl, rfl, rfl, rfl⟩
  | accept expected =>
      refine .inr (.inr ?_)
      by_cases hhead : cursor.unread.head? = some expected
      · obtain ⟨rest, hunread⟩ := List.head?_eq_some_iff.mp hhead
        have hmove : cursor.perform (.accept expected) =
            (.accepted true, cursor.take [expected] rest) := by
          rw [perform, accept_of_unread hunread]
        rw [hmove]
        exact ⟨[expected], rest, rfl, hunread, rfl, rfl⟩
      · have hmove : cursor.perform (.accept expected) = (.accepted false, cursor) := by
          rw [perform, accept_of_head?_ne hhead]
        rw [hmove]
        exact ⟨[], cursor.unread, rfl, rfl, rfl, rfl⟩
  | takeRun belongs =>
      exact .inr (.inr ⟨cursor.unread.takeWhile belongs, cursor.unread.dropWhile belongs, rfl,
        List.takeWhile_append_dropWhile.symm, rfl, rfl⟩)

/-- Only a mark begins a new lexeme. -/
theorem start_perform_eq_or (cursor : Cursor) (move : Move) :
    (cursor.perform move).2.start = cursor.start ∨
      move = .mark ∧ (cursor.perform move).2.start = cursor.offset := by
  rcases cursor.perform_cases move with
    ⟨rfl, hmove⟩ | ⟨rfl, hmove⟩ | ⟨text, rest, -, -, -, hmove⟩
  · rw [hmove]
    exact .inr ⟨rfl, rfl⟩
  · rw [hmove]
    exact .inl rfl
  · rw [hmove]
    exact .inl rfl

/-- Only being told of a line counts one. -/
theorem line_perform (cursor : Cursor) (move : Move) :
    (cursor.perform move).2.line = cursor.line + if move.isNewline then 1 else 0 := by
  rcases cursor.perform_cases move with
    ⟨rfl, hmove⟩ | ⟨rfl, hmove⟩ | ⟨text, rest, hnewline, -, -, hmove⟩
  · rw [hmove]
    rfl
  · rw [hmove]
    rfl
  · rw [hmove, hnewline]
    rfl

/-- A cursor goes on by the bytes that it takes. -/
theorem offset_perform (cursor : Cursor) (move : Move) :
    (cursor.perform move).2.offset =
      cursor.offset + bytes (move.textTaken (cursor.perform move).1) := by
  rcases cursor.perform_cases move with
    ⟨rfl, hmove⟩ | ⟨rfl, hmove⟩ | ⟨text, rest, -, -, htext, hmove⟩
  · rw [hmove]
    exact cursor.mark_offset
  · rw [hmove]
    rfl
  · rw [htext, hmove, take_offset]

/-- Who takes nothing stays where it is, in all respects. -/
theorem perform_of_isRefusal {cursor : Cursor} {move : Move}
    (hrefusal : (cursor.perform move).1.IsRefusal) : (cursor.perform move).2 = cursor := by
  rcases cursor.perform_cases move with
    ⟨rfl, hmove⟩ | ⟨rfl, hmove⟩ | ⟨text, rest, -, hunread, htext, hmove⟩
  · rw [hmove] at hrefusal
    cases hrefusal
  · rw [hmove] at hrefusal
    cases hrefusal
  · have hnothing : move.textTaken (cursor.perform move).1 = [] := by
      generalize (cursor.perform move).1 = reply at hrefusal
      cases hrefusal <;> cases move <;> rfl
    obtain rfl : text = [] := htext.symm.trans hnothing
    rw [hmove]
    exact take_nil hunread

/-- A character is refused at the end, and only there. -/
theorem takeChar_refuses_iff (cursor : Cursor) :
    (cursor.perform .takeChar).1 = .character none ↔ cursor.atEnd = true := by
  rw [perform, atEnd]
  cases hunread : cursor.unread with
  | nil => simp [takeChar, hunread]
  | cons c rest => simp [takeChar_of_unread hunread]

/-! ## Any number of moves -/

/-- A cursor over a source that has taken a text from it, of which its lexeme is the
end. -/
structure HasTaken (cursor : Cursor) (source text : List Char) : Prop where
  source_eq : source = text ++ cursor.unread
  exists_front : ∃ front, text = front ++ cursor.lexemeChars ∧ cursor.start = bytes front

namespace HasTaken

variable {cursor : Cursor} {source text : List Char}

theorem atStart (source : List Char) : (Cursor.atStart source).HasTaken source [] :=
  ⟨rfl, [], rfl, rfl⟩

/-- A move keeps a cursor true to its text. -/
theorem perform (htaken : cursor.HasTaken source text) (move : Move) :
    (cursor.perform move).2.HasTaken source
      (text ++ move.textTaken (cursor.perform move).1) := by
  obtain ⟨hsource, front, htext, hstart⟩ := htaken
  rcases cursor.perform_cases move with
    ⟨rfl, hmove⟩ | ⟨rfl, hmove⟩ | ⟨taken, rest, -, hunread, htaken, hmove⟩
  · rw [hmove, Move.textTaken_nothing, List.append_nil]
    refine ⟨hsource, text, by simp [lexemeChars, mark], ?_⟩
    -- the place of the cursor is the sum of what is before the lexeme and the lexeme
    rw [htext, bytes_append, lexemeChars, bytes_reverse, ← hstart]
    rfl
  · rw [hmove, Move.textTaken_nothing, List.append_nil]
    exact ⟨hsource, front, htext, hstart⟩
  · rw [htaken, hmove]
    refine ⟨?_, front, ?_, hstart⟩
    · rw [hsource, hunread, take_unread, List.append_assoc]
    · rw [htext]
      simp [lexemeChars, take]

theorem after (htaken : cursor.HasTaken source text) (moves : List Move) :
    (cursor.after moves).HasTaken source (text ++ cursor.textTakenBy moves) := by
  induction moves generalizing cursor text with
  | nil =>
      rw [textTakenBy, List.append_nil]
      exact htaken
  | cons move moves ih =>
      rw [textTakenBy, ← List.append_assoc]
      exact ih (htaken.perform move)

theorem offset_eq (htaken : cursor.HasTaken source text) : cursor.offset = bytes text := by
  obtain ⟨-, front, htext, hstart⟩ := htaken
  rw [htext, bytes_append, lexemeChars, bytes_reverse, offset, hstart]

theorem firstBytes? (htaken : cursor.HasTaken source text) :
    firstBytes? source cursor.offset = some text := by
  rw [htaken.offset_eq, htaken.source_eq, firstBytes?_append]

theorem slice? (htaken : cursor.HasTaken source text) :
    slice? source cursor.start cursor.offset = some cursor.lexemeChars := by
  obtain ⟨front, htext, hstart⟩ := htaken.exists_front
  rw [htaken.offset_eq, htaken.source_eq, htext, hstart, bytes_append]
  exact slice?_append _ _ _

theorem offset_le (htaken : cursor.HasTaken source text) : cursor.offset ≤ bytes source := by
  rw [htaken.offset_eq, htaken.source_eq, bytes_append]
  exact Nat.le_add_right _ _

theorem offset_lt_iff (htaken : cursor.HasTaken source text) :
    cursor.offset < bytes source ↔ cursor.unread ≠ [] := by
  have hsize : bytes source = cursor.offset + bytes cursor.unread := by
    rw [htaken.offset_eq, ← bytes_append, ← htaken.source_eq]
  constructor
  · intro hlt hempty
    rw [hsize, hempty, bytes_nil] at hlt
    exact Nat.lt_irrefl _ hlt
  · intro hne
    have hpositive := bytes_pos hne
    omega

end HasTaken

/-- The bytes of the front of a text lead to a place between two characters. -/
theorem isValid_bytes {source : String} {front back : List Char}
    (hsource : source.toList = front ++ back) :
    String.Pos.Raw.IsValid source ⟨bytes front⟩ := by
  rw [String.Pos.Raw.isValid_iff_exists_append]
  refine ⟨.ofList front, .ofList back, ?_, ?_⟩
  · rw [← String.ofList_append, ← hsource, String.ofList_toList]
  · rw [bytes_eq_utf8ByteSize]
    rfl

theorem exists_append_of_isValid {source : String} {place : Nat}
    (hvalid : String.Pos.Raw.IsValid source ⟨place⟩) :
    ∃ front back, source.toList = front ++ back ∧ bytes front = place := by
  obtain ⟨front, back, hsource, hplace⟩ := String.Pos.Raw.isValid_iff_exists_append.mp hvalid
  refine ⟨front.toList, back.toList, ?_, ?_⟩
  · rw [hsource, String.toList_append]
  · rw [bytes_toList]
    exact (congrArg String.Pos.Raw.byteIdx hplace).symm

theorem HasTaken.isValid {cursor : Cursor} {source : String} {text : List Char}
    (htaken : cursor.HasTaken source.toList text) :
    String.Pos.Raw.IsValid source ⟨cursor.start⟩ ∧
      String.Pos.Raw.IsValid source ⟨cursor.offset⟩ := by
  obtain ⟨front, htext, hstart⟩ := htaken.exists_front
  rw [htaken.offset_eq, hstart]
  refine ⟨?_, isValid_bytes htaken.source_eq⟩
  apply isValid_bytes
  rw [htaken.source_eq, htext, List.append_assoc]

/-- Of two texts with which a source begins, the one with no more bytes begins the other. -/
theorem isPrefix_of_bytes_le {source front text : List Char} (hfront : front <+: source)
    (htext : text <+: source) (hle : bytes front ≤ bytes text) : front <+: text := by
  rcases List.prefix_or_prefix_of_prefix hfront htext with hprefix | ⟨more, rfl⟩
  · exact hprefix
  · rw [bytes_append] at hle
    cases more with
    | nil => exact ⟨[], by simp⟩
    | cons c more =>
        have hpositive := bytes_pos (List.cons_ne_nil c more)
        omega

/-- A cursor can be over a source at any two of its places, the lexeme beginning at the
first of them, and on any line. -/
theorem exists_hasTaken_iff {source : String} {start stop line : Nat} :
    (∃ (cursor : Cursor) (text : List Char), cursor.HasTaken source.toList text ∧
      cursor.start = start ∧ cursor.offset = stop ∧ cursor.line = line) ↔
    start ≤ stop ∧ String.Pos.Raw.IsValid source ⟨start⟩ ∧
      String.Pos.Raw.IsValid source ⟨stop⟩ := by
  constructor
  · rintro ⟨cursor, text, htaken, rfl, rfl, rfl⟩
    exact ⟨Nat.le_add_right _ _, htaken.isValid⟩
  · rintro ⟨hle, hstart, hstop⟩
    obtain ⟨front, rest, hsource, rfl⟩ := exists_append_of_isValid hstart
    obtain ⟨text, unread, hsource', rfl⟩ := exists_append_of_isValid hstop
    obtain ⟨lexeme, rfl⟩ := isPrefix_of_bytes_le ⟨rest, hsource.symm⟩ ⟨unread, hsource'.symm⟩ hle
    refine ⟨⟨bytes front, lexeme.reverse, unread, line⟩, front ++ lexeme,
      ⟨hsource', front, ?_, rfl⟩, rfl, ?_, rfl⟩
    · rw [lexemeChars, List.reverse_reverse]
    · rw [offset, bytes_reverse, bytes_append]

theorem line_after (cursor : Cursor) (moves : List Move) :
    (cursor.after moves).line = cursor.line + moves.countP Move.isNewline := by
  induction moves generalizing cursor with
  | nil => rfl
  | cons move moves ih =>
      rw [after_cons, ih, line_perform, List.countP_cons]
      omega

/-- Moves never lead back. -/
theorem le_after (cursor : Cursor) (moves : List Move) :
    cursor.start ≤ (cursor.after moves).start ∧ cursor.offset ≤ (cursor.after moves).offset ∧
      cursor.line ≤ (cursor.after moves).line := by
  induction moves generalizing cursor with
  | nil => exact ⟨Nat.le_refl _, Nat.le_refl _, Nat.le_refl _⟩
  | cons move moves ih =>
      obtain ⟨hstart, hoffset, hline⟩ := ih (cursor.perform move).2
      rw [after_cons]
      refine ⟨Nat.le_trans ?_ hstart, Nat.le_trans ?_ hoffset, Nat.le_trans ?_ hline⟩
      · rcases cursor.start_perform_eq_or move with hsame | ⟨-, hmark⟩
        · exact Nat.le_of_eq hsame.symm
        · rw [hmark]
          exact Nat.le_add_right _ _
      · rw [offset_perform]
        exact Nat.le_add_right _ _
      · rw [line_perform]
        exact Nat.le_add_right _ _

/-- **A cursor stays true to its text.**  After any moves from the start of a source its
lexeme lies between two places that are no places within a character, the later of them
where it stands, and is the source from the one to the other.  What it has been asked to
take and has taken is the source up to there, and its line is one more than it has been
told.  No move leads back, marking alone moves the start and being told of a line alone
moves the line, and a move that takes nothing leaves everything as it is. -/
theorem after_atStart (source : String) (moves : List Move) :
    let cursor := (atStart source.toList).after moves
    cursor.start ≤ cursor.offset ∧ cursor.offset ≤ source.utf8ByteSize ∧
    String.Pos.Raw.IsValid source ⟨cursor.start⟩ ∧
    String.Pos.Raw.IsValid source ⟨cursor.offset⟩ ∧
    Text.slice? source.toList cursor.start cursor.offset = some cursor.lexeme.toList ∧
    cursor.span = ⟨cursor.start, cursor.lexeme.utf8ByteSize⟩ ∧
    cursor.span.stop = cursor.offset ∧
    Text.firstBytes? source.toList cursor.offset =
      some ((atStart source.toList).textTakenBy moves) ∧
    cursor.line = 1 + moves.countP Move.isNewline ∧
    (∀ later, cursor.start ≤ ((atStart source.toList).after (moves ++ later)).start ∧
      cursor.offset ≤ ((atStart source.toList).after (moves ++ later)).offset ∧
      cursor.line ≤ ((atStart source.toList).after (moves ++ later)).line) ∧
    (∀ move, (cursor.perform move).2.start ≠ cursor.start → move = .mark) ∧
    (∀ move, (cursor.perform move).2.line ≠ cursor.line → move = .newline) ∧
    (∀ move, (cursor.perform move).1.IsRefusal → (cursor.perform move).2 = cursor) ∧
    ((cursor.perform .takeChar).1 = .character none ↔ cursor.atEnd = true) := by
  intro cursor
  have htaken : cursor.HasTaken source.toList ((atStart source.toList).textTakenBy moves) :=
    (HasTaken.atStart source.toList).after moves
  have hsize : bytes source.toList = source.utf8ByteSize := by
    rw [bytes_eq_utf8ByteSize, String.ofList_toList]
  refine ⟨Nat.le_add_right _ _, hsize ▸ htaken.offset_le, htaken.isValid.1, htaken.isValid.2,
    ?_, ?_, rfl, htaken.firstBytes?, line_after _ moves, ?_, ?_, ?_,
    fun move => perform_of_isRefusal, cursor.takeChar_refuses_iff⟩
  · rw [htaken.slice?, lexeme, String.toList_ofList]
  · rw [span, lexeme, ← bytes_eq_utf8ByteSize, lexemeChars, bytes_reverse]
  · intro later
    rw [after_append]
    exact le_after cursor later
  · intro move hmoved
    rcases cursor.start_perform_eq_or move with hsame | ⟨hmark, -⟩
    · exact absurd hsame hmoved
    · exact hmark
  · intro move hmoved
    rcases cursor.perform_cases move with
      ⟨rfl, hmove⟩ | ⟨rfl, -⟩ | ⟨text, rest, -, -, -, hmove⟩
    · exact absurd (by rw [hmove]; rfl) hmoved
    · rfl
    · exact absurd (by rw [hmove]; rfl) hmoved

/-- Two digits behind a character of two bytes, and a third digit that is not there. -/
theorem after_atStart_digits :
    let moves : List Move := [.takeChar, .mark, .takeRun Char.isDigit, .newline]
    let cursor := (atStart "é12 ".toList).after moves
    String.Pos.Raw.IsValid "é12 " ⟨2⟩ ∧ Text.slice? "é12 ".toList 2 4 = some "12".toList ∧
      Text.firstBytes? "é12 ".toList 4 = some "é12".toList ∧
      (cursor.perform (.accept '3')).2 = cursor ∧
      ((cursor.perform .mark).2.start ≠ cursor.start ∧ Move.mark = .mark) ∧
      ((cursor.perform .newline).2.line ≠ cursor.line ∧ Move.newline = .newline) := by
  intro moves cursor
  obtain ⟨-, -, hstart, -, hslice, -, -, htext, -, -, hmark, hnewline, hrefusal, -⟩ :=
    after_atStart "é12 " moves
  have hmoved : (cursor.perform .mark).2.start ≠ cursor.start := by decide
  have htold : (cursor.perform .newline).2.line ≠ cursor.line := by decide
  exact ⟨hstart, hslice, htext, hrefusal (.accept '3') .accepted, ⟨hmoved, hmark _ hmoved⟩,
    htold, hnewline _ htold⟩

end Cursor

end LoxTokens
