import LoxTokens.Proofs.Lexicon.Foresight
import LoxTokens.Proofs.Lexicon.Pieces

/-!
# The reader takes the longest piece

From any cursor the reader takes exactly the piece that `Reads` describes: it
hands over the lexeme that the piece is at the offset and the line where the
cursor stands, and moves the cursor behind it.  Every cursor that is not at the
end has such a piece in front of it, so this says all there is to say about one
step of a scan.
-/

namespace LoxTokens

open Text

namespace Cursor

/-! ## Cursors that take a known text -/

/-- The cursor that has taken a text, with the given rest still to be read. -/
def take (cursor : Cursor) (text rest : List Char) : Cursor :=
  { cursor with taken := text.reverse ++ cursor.taken, unread := rest }

/-- The cursor behind a lexeme of the given text. -/
def behind (cursor : Cursor) (text rest : List Char) : Cursor :=
  (cursor.mark.take text rest).newlines (lineFeeds text)

@[simp] theorem take_unread (cursor : Cursor) (text rest : List Char) :
    (cursor.take text rest).unread = rest := rfl

@[simp] theorem take_take (cursor : Cursor) (front middle back rest : List Char) :
    (cursor.take front middle).take back rest = cursor.take (front ++ back) rest := by
  simp [take]

@[simp] theorem newlines_take (cursor : Cursor) (count : Nat) (text rest : List Char) :
    (cursor.newlines count).take text rest = (cursor.take text rest).newlines count := rfl

@[simp] theorem span_newlines (cursor : Cursor) (count : Nat) :
    (cursor.newlines count).span = cursor.span := rfl

@[simp] theorem lexemeChars_mark_take (cursor : Cursor) (text rest : List Char) :
    (cursor.mark.take text rest).lexemeChars = text := by
  simp [lexemeChars, take, mark]

@[simp] theorem span_mark_take (cursor : Cursor) (text rest : List Char) :
    (cursor.mark.take text rest).span = ⟨cursor.offset, bytes text⟩ := by
  simp [span, take, mark]

@[simp] theorem behind_unread (cursor : Cursor) (text rest : List Char) :
    (cursor.behind text rest).unread = rest := rfl

@[simp] theorem behind_offset (cursor : Cursor) (text rest : List Char) :
    (cursor.behind text rest).offset = cursor.offset + bytes text := by
  simp [behind, take, mark, newlines, offset]

@[simp] theorem behind_line (cursor : Cursor) (text rest : List Char) :
    (cursor.behind text rest).line = cursor.line + lineFeeds text := rfl

theorem takeChar_of_unread {cursor : Cursor} {c : Char} {rest : List Char}
    (hunread : cursor.unread = c :: rest) : cursor.takeChar = (some c, cursor.take [c] rest) := by
  simp [takeChar, hunread, take]

theorem accept_of_unread {cursor : Cursor} {c : Char} {rest : List Char}
    (hunread : cursor.unread = c :: rest) : cursor.accept c = (true, cursor.take [c] rest) := by
  simp [accept, peek?, hunread, takeChar_of_unread hunread]

theorem accept_of_head?_ne {cursor : Cursor} {c : Char} (hunread : cursor.unread.head? ≠ some c) :
    cursor.accept c = (false, cursor) := by
  simp [accept, peek?, hunread]

theorem takeRun_of_unread {cursor : Cursor} {belongs : Char → Bool} {run rest : List Char}
    (hunread : cursor.unread = run ++ rest) (hrun : ∀ c ∈ run, belongs c = true)
    (hstop : Stops belongs rest) : cursor.takeRun belongs = (run, cursor.take run rest) := by
  simp [takeRun, hunread, takeWhile_append_of_stops hrun hstop,
    dropWhile_append_of_stops hrun hstop, take]

end Cursor

open Lexicon Start

namespace Lexeme

/-! ## The readers -/

variable {cursor : Cursor} {rest : List Char}

theorem readOperator_of_unread {alone extended : Token.Kind} {line : Nat}
    (hunread : cursor.unread = '=' :: rest) :
    readOperator alone extended line cursor =
      (.token ((cursor.take ['='] rest).token extended none line), cursor.take ['='] rest) := by
  simp [readOperator, Cursor.accept_of_unread hunread]

theorem readOperator_of_head?_ne {alone extended : Token.Kind} {line : Nat}
    (hunread : cursor.unread.head? ≠ some '=') :
    readOperator alone extended line cursor = (.token (cursor.token alone none line), cursor) := by
  simp [readOperator, Cursor.accept_of_head?_ne hunread]

theorem readSlash_of_unread (line : Nat) {body : List Char}
    (hunread : cursor.unread = '/' :: (body ++ rest)) (hbody : '\n' ∉ body)
    (hstop : Stops (· ≠ '\n') rest) :
    readSlash line cursor = (.trivia, cursor.take ('/' :: body) rest) := by
  simp only [readSlash, Cursor.accept_of_unread hunread, if_true]
  rw [Cursor.takeRun_of_unread (Cursor.take_unread ..) (forall_ne_of_notMem hbody) hstop,
    Cursor.take_take]
  rfl

theorem readSlash_of_head?_ne {line : Nat} (hunread : cursor.unread.head? ≠ some '/') :
    readSlash line cursor = (.token (cursor.token .slash none line), cursor) := by
  simp [readSlash, Cursor.accept_of_head?_ne hunread]

theorem readString_of_unread {line : Nat} {body : List Char}
    (hunread : cursor.unread = body ++ '"' :: rest) (hbody : '"' ∉ body) :
    readString line cursor =
      (.token ((cursor.take (body ++ ['"']) rest).token .string
          (some (.string (.ofList body))) line),
        (cursor.take (body ++ ['"']) rest).newlines (lineFeeds body)) := by
  have hrun := Cursor.takeRun_of_unread hunread (forall_ne_of_notMem hbody) (by simp)
  have hquote : ((cursor.take body ('"' :: rest)).newlines (lineFeeds body)).accept '"' = _ :=
    Cursor.accept_of_unread rfl
  simp only [readString, hrun, hquote, if_true, Cursor.newlines_take, Cursor.take_take]
  rfl

theorem readString_of_notMem {line : Nat} {body : List Char} (hunread : cursor.unread = body)
    (hbody : '"' ∉ body) :
    readString line cursor =
      (.fault (((cursor.take body []).newlines (lineFeeds body)).fault .openString),
        (cursor.take body []).newlines (lineFeeds body)) := by
  have hrun := Cursor.takeRun_of_unread (hunread.trans (List.append_nil body).symm)
    (forall_ne_of_notMem hbody) stops_nil
  have hquote : ((cursor.take body []).newlines (lineFeeds body)).accept '"' = _ :=
    Cursor.accept_of_head?_ne (by simp [Cursor.newlines])
  simp only [readString, hrun, hquote]
  rfl

theorem takeFraction_of_unread {fraction : List Char}
    (hunread : cursor.unread = '.' :: (fraction ++ rest)) (hne : fraction ≠ [])
    (hfraction : ∀ c ∈ fraction, c.isDigit = true) (hstop : Stops Char.isDigit rest) :
    takeFraction cursor = cursor.take ('.' :: fraction) rest := by
  obtain ⟨d, others, rfl⟩ := List.exists_cons_of_ne_nil hne
  have hnext : cursor.peekSecond?.any Char.isDigit = true := by
    simp [Cursor.peekSecond?, hunread, hfraction d]
  rw [takeFraction, if_pos ⟨by simp [Cursor.peek?, hunread], hnext⟩,
    Cursor.takeChar_of_unread hunread,
    Cursor.takeRun_of_unread (Cursor.take_unread ..) hfraction hstop, Cursor.take_take]
  rfl

theorem takeFraction_of_not_startsFraction (hunread : ¬ StartsFraction cursor.unread) :
    takeFraction cursor = cursor :=
  if_neg hunread

theorem ofChars_append {whole tail : List Char} (hwhole : ∀ c ∈ whole, c.isDigit = true)
    (htail : Stops Char.isDigit tail) :
    Numeral.ofChars (whole ++ tail) = Numeral.ofDigits whole (tail.drop 1) := by
  rw [Numeral.ofChars, takeWhile_append_of_stops hwhole htail,
    dropWhile_append_of_stops hwhole htail]

/-- Behind its first digit a number is read on, with the fraction if there is
one. -/
theorem readNumber_take (cursor : Cursor) (line : Nat) {first : Char} {whole tail : List Char}
    (hfirst : first.isDigit = true) (hwhole : ∀ c ∈ whole, c.isDigit = true)
    (htail : Stops Char.isDigit tail) (hstop : Stops Char.isDigit (tail ++ rest))
    (hfraction : takeFraction (cursor.mark.take (first :: whole) (tail ++ rest)) =
      cursor.mark.take (first :: (whole ++ tail)) rest) :
    readNumber line (cursor.mark.take [first] (whole ++ tail ++ rest)) =
      (.token ((cursor.mark.take (first :: (whole ++ tail)) rest).token .number
          (some (.number (Numeral.ofDigits (first :: whole) (tail.drop 1)).toBinary64)) line),
        cursor.mark.take (first :: (whole ++ tail)) rest) := by
  have hunread : (cursor.mark.take [first] (whole ++ tail ++ rest)).unread =
      whole ++ (tail ++ rest) := List.append_assoc ..
  have hvalue := ofChars_append (List.forall_mem_cons.mpr ⟨hfirst, hwhole⟩) htail
  rw [List.cons_append] at hvalue
  simp only [readNumber, Cursor.takeRun_of_unread hunread hwhole hstop, Cursor.take_take,
    List.singleton_append, hfraction, Cursor.lexemeChars_mark_take, hvalue]

/-- Behind its first letter a word is read on. -/
theorem readWord_take (cursor : Cursor) (line : Nat) {first : Char} {others : List Char}
    (hothers : ∀ c ∈ others, isWordChar c = true) (hstop : Stops isWordChar rest) :
    readWord line (cursor.mark.take [first] (others ++ rest)) =
      (.token ((cursor.mark.take (first :: others) rest).token
          (.ofWord (.ofList (first :: others))) none line),
        cursor.mark.take (first :: others) rest) := by
  have hunread : (cursor.mark.take [first] (others ++ rest)).unread = others ++ rest := rfl
  simp only [readWord, Cursor.takeRun_of_unread hunread hothers hstop, Cursor.take_take,
    List.singleton_append, Cursor.lexeme, Cursor.lexemeChars_mark_take]

/-! ## One step -/

theorem lineFeeds_eq_zero {text : List Char} (htext : '\n' ∉ text) : lineFeeds text = 0 :=
  List.count_eq_zero.mpr htext

theorem lineFeeds_eq_zero_of_forall {belongs : Char → Bool} {text : List Char}
    (htext : ∀ c ∈ text, belongs c = true) (hlineFeed : belongs '\n' = false) :
    lineFeeds text = 0 := by
  refine lineFeeds_eq_zero fun hmem => ?_
  rw [htext _ hmem] at hlineFeed
  cases hlineFeed

theorem lineFeeds_digits {text : List Char} (htext : ∀ c ∈ text, c.isDigit = true) :
    lineFeeds text = 0 :=
  lineFeeds_eq_zero_of_forall htext rfl

/-- A token that has been taken, with the cursor behind its lines. -/
theorem token_eq_lexemeAt (kind : Token.Kind) (literal : Option Literal) (text : List Char) :
    (Lexeme.token ((cursor.mark.take text rest).token kind literal cursor.line),
        (cursor.mark.take text rest).newlines (lineFeeds text)) =
      (Piece.lexemeAt ⟨text, .token kind literal⟩ cursor.offset cursor.line,
        cursor.behind text rest) := by
  simp [Cursor.token, Cursor.lexeme, Piece.lexemeAt, Cursor.behind]

/-- A token on one line. -/
theorem token_eq_lexemeAt_of_line {kind : Token.Kind} {literal : Option Literal}
    {text : List Char} (hline : lineFeeds text = 0) :
    (Lexeme.token ((cursor.mark.take text rest).token kind literal cursor.line),
        cursor.mark.take text rest) =
      (Piece.lexemeAt ⟨text, .token kind literal⟩ cursor.offset cursor.line,
        cursor.behind text rest) := by
  rw [← token_eq_lexemeAt, hline]
  rfl

theorem fault_eq_lexemeAt (cursor : Cursor) (rest : List Char) (cause : Fault.Cause)
    (text : List Char) :
    (Lexeme.fault (((cursor.mark.take text rest).newlines (lineFeeds text)).fault cause),
        (cursor.mark.take text rest).newlines (lineFeeds text)) =
      (Piece.lexemeAt ⟨text, .fault cause⟩ cursor.offset cursor.line,
        cursor.behind text rest) := by
  simp only [Cursor.fault, Piece.lexemeAt, Cursor.behind, Cursor.span_newlines,
    Cursor.span_mark_take]
  rfl

theorem lineFeeds_singleton_of_ofChar {c : Char} (hc : ofChar c ≠ .lineFeed) :
    lineFeeds [c] = 0 := by
  refine lineFeeds_eq_zero fun hmem => ?_
  rw [List.mem_singleton] at hmem
  subst hmem
  exact hc rfl

theorem next?_of_unread {first : Char} {others : List Char}
    (hunread : cursor.unread = first :: others) :
    next? cursor = some (read first cursor.line (cursor.mark.take [first] others)) := by
  have htake : cursor.mark.takeChar = (some first, cursor.mark.take [first] others) :=
    Cursor.takeChar_of_unread hunread
  simp only [next?, htake]

/-- A number without a fraction, its first digit taken. -/
theorem readNumber_integer {first : Char} {whole : List Char} (hfirst : first.isDigit = true)
    (hwhole : ∀ c ∈ whole, c.isDigit = true) (hstop : Stops Char.isDigit rest)
    (hnone : ¬ StartsFraction rest) :
    readNumber cursor.line (cursor.mark.take [first] (whole ++ rest)) =
      (Piece.lexemeAt ⟨first :: whole, numberSense (first :: whole) []⟩ cursor.offset cursor.line,
        cursor.behind (first :: whole) rest) := by
  have hline : lineFeeds (first :: whole) = 0 :=
    lineFeeds_digits (List.forall_mem_cons.mpr ⟨hfirst, hwhole⟩)
  have hfraction : takeFraction (cursor.mark.take (first :: whole) ([] ++ rest)) =
      cursor.mark.take (first :: (whole ++ [])) rest := by
    rw [List.append_nil]
    exact takeFraction_of_not_startsFraction hnone
  have hnumber := readNumber_take cursor cursor.line hfirst hwhole stops_nil hstop hfraction
  simp only [List.append_nil] at hnumber
  exact hnumber.trans (token_eq_lexemeAt_of_line hline)

/-- A number with a fraction, its first digit taken. -/
theorem readNumber_decimal {first : Char} {whole fraction : List Char}
    (hfirst : first.isDigit = true) (hwhole : ∀ c ∈ whole, c.isDigit = true)
    (hne : fraction ≠ []) (hin : ∀ c ∈ fraction, c.isDigit = true)
    (hstop : Stops Char.isDigit rest) :
    readNumber cursor.line (cursor.mark.take [first] (whole ++ '.' :: fraction ++ rest)) =
      (Piece.lexemeAt ⟨first :: (whole ++ '.' :: fraction), numberSense (first :: whole) fraction⟩
          cursor.offset cursor.line,
        cursor.behind (first :: (whole ++ '.' :: fraction)) rest) := by
  have hline : lineFeeds (first :: whole ++ '.' :: fraction) = 0 := by
    rw [lineFeeds_append, lineFeeds_digits (List.forall_mem_cons.mpr ⟨hfirst, hwhole⟩)]
    simpa [lineFeeds] using lineFeeds_digits hin
  have hnext : (cursor.mark.take (first :: whole) ('.' :: fraction ++ rest)).unread =
      '.' :: (fraction ++ rest) := rfl
  have hfraction := takeFraction_of_unread hnext hne hin hstop
  rw [Cursor.take_take] at hfraction
  exact (readNumber_take cursor cursor.line hfirst hwhole (by simp) (by simp) hfraction).trans
    (token_eq_lexemeAt_of_line hline)

/-- The first character decides which reader goes on, and each of them takes the
piece up to its end. -/
theorem read_of_reads {first : Char} {others : List Char} {sense : Sense}
    (hread : Reads ⟨first :: others, sense⟩ rest) :
    read first cursor.line (cursor.mark.take [first] (others ++ rest)) =
      (Piece.lexemeAt ⟨first :: others, sense⟩ cursor.offset cursor.line,
        cursor.behind (first :: others) rest) := by
  cases hread with
  | punctuation hc =>
      simp only [read, hc]
      exact token_eq_lexemeAt_of_line (lineFeeds_singleton_of_ofChar (by rw [hc]; simp))
  | operator hc hrest =>
      simp only [read, hc]
      exact (readOperator_of_head?_ne hrest).trans
        (token_eq_lexemeAt_of_line (lineFeeds_singleton_of_ofChar (by rw [hc]; simp)))
  | extendedOperator hc =>
      have hfirst : lineFeeds [first] = 0 := lineFeeds_singleton_of_ofChar (by rw [hc]; simp)
      have hline : lineFeeds ([first] ++ ['=']) = 0 := by
        rw [lineFeeds_append, hfirst]
        rfl
      have hnext : (cursor.mark.take [first] (['='] ++ rest)).unread = '=' :: rest := rfl
      simp only [read, hc]
      rw [readOperator_of_unread hnext, Cursor.take_take]
      exact token_eq_lexemeAt_of_line hline
  | slash hrest => exact (readSlash_of_head?_ne hrest).trans (token_eq_lexemeAt_of_line rfl)
  | @comment body _ hbody hrest =>
      have hnext : (cursor.mark.take ['/'] ('/' :: (body ++ rest))).unread =
          '/' :: (body ++ rest) := rfl
      have hline : lineFeeds ('/' :: '/' :: body) = 0 := lineFeeds_eq_zero (by simpa using hbody)
      refine (readSlash_of_unread cursor.line hnext hbody hrest).trans ?_
      rw [Cursor.take_take, Cursor.behind, List.singleton_append, hline]
      rfl
  | blank hc =>
      have hline : lineFeeds [first] = 0 := lineFeeds_singleton_of_ofChar (by rw [hc]; simp)
      simp only [read, hc, Cursor.behind, hline]
      rfl
  | lineFeed => rfl
  | @string body _ hbody =>
      have hnext : (cursor.mark.take ['"'] (body ++ ['"'] ++ rest)).unread =
          body ++ '"' :: rest := by simp
      have hline : lineFeeds ('"' :: (body ++ ['"'])) = lineFeeds body := by
        simp [lineFeeds]
      refine (readString_of_unread hnext hbody).trans ?_
      rw [Cursor.take_take, List.singleton_append, ← hline]
      exact token_eq_lexemeAt ..
  | @openString _ hbody =>
      have hnext : (cursor.mark.take ['"'] (others ++ [])).unread = others := by simp
      have hline : lineFeeds ('"' :: others) = lineFeeds others := by simp [lineFeeds]
      refine (readString_of_notMem hnext hbody).trans ?_
      rw [Cursor.take_take, List.singleton_append, ← hline]
      exact fault_eq_lexemeAt ..
  | integer hfirst hwhole hrest hnone =>
      simp only [read, ofChar_eq_of_admits .digit (by simp) hfirst]
      exact readNumber_integer hfirst hwhole hrest hnone
  | decimal hfirst hwhole hne hfraction hrest =>
      simp only [read, ofChar_eq_of_admits .digit (by simp) hfirst]
      exact readNumber_decimal hfirst hwhole hne hfraction hrest
  | word hfirst hothers hrest =>
      have hwordChar : isWordChar first = true := by simp [isWordChar, hfirst]
      have hline : lineFeeds (first :: others) = 0 :=
        lineFeeds_eq_zero_of_forall (List.forall_mem_cons.mpr ⟨hwordChar, hothers⟩) rfl
      simp only [read, ofChar_eq_of_admits .letter (by simp) hfirst]
      exact (readWord_take cursor cursor.line hothers hrest).trans
        (token_eq_lexemeAt_of_line hline)
  | foreign hc =>
      have hline : lineFeeds [first] = 0 := lineFeeds_singleton_of_ofChar (by rw [hc]; simp)
      have hfault := fault_eq_lexemeAt cursor rest (.foreignCharacter first) [first]
      rw [hline] at hfault
      simp only [read, hc]
      exact hfault

/-- **One step of a scan.**  In front of a piece and a rest behind which it
ends, the reader takes the piece. -/
theorem next?_of_reads {piece : Piece} (hread : Reads piece rest)
    (hunread : cursor.unread = piece.text ++ rest) :
    next? cursor =
      some (piece.lexemeAt cursor.offset cursor.line, cursor.behind piece.text rest) := by
  obtain ⟨text, sense⟩ := piece
  obtain ⟨first, others, rfl⟩ := List.exists_cons_of_ne_nil hread.text_ne_nil
  exact (next?_of_unread hunread).trans (congrArg some (read_of_reads hread))

theorem next?_of_unread_eq_nil (hunread : cursor.unread = []) : next? cursor = none := by
  have htake : cursor.mark.takeChar = (none, cursor.mark) := by
    simp [Cursor.takeChar, Cursor.mark, hunread]
  simp only [next?, htake]

end Lexeme

end LoxTokens
