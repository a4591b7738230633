import LoxTokens.Proofs.Lexicon.Languages

/-!
# Pieces in their places

A piece says how a lexeme is written and what it means; only its offset and its
line tie it to a place.  So a list of pieces turns into the lexemes of a text by
adding up what the pieces before each one take, and lexemes that stand further
down a text are the same lexemes moved.
-/

namespace LoxTokens

namespace Piece

/-- The lexeme that a piece is at a given offset and line.  A token carries the
line on which it begins, a fault the line that it reaches. -/
def lexemeAt (piece : Piece) (offset line : Nat) : Lexeme :=
  match piece.sense with
  | .token kind literal =>
    .token ⟨kind, .ofList piece.text, literal, line, ⟨offset, Text.bytes piece.text⟩⟩
  | .trivia => .trivia
  | .fault cause =>
    .fault
      { cause
        line := line + Text.lineFeeds piece.text
        span := ⟨offset, Text.bytes piece.text⟩ }

/-- The text of several pieces one behind the other. -/
def flatten (pieces : List Piece) : List Char := pieces.flatMap text

/-- The lexemes that pieces are one behind the other, from a given offset and
line on. -/
def lexemesFrom (offset line : Nat) : List Piece → List Lexeme
  | [] => []
  | piece :: pieces =>
    piece.lexemeAt offset line ::
      lexemesFrom (offset + Text.bytes piece.text) (line + Text.lineFeeds piece.text) pieces

end Piece

/-- The token that a lexeme is, if it is one. -/
def Lexeme.token? : Lexeme → Option Token
  | .token found => some found
  | _ => none

/-- The fault that a lexeme is, if it is one. -/
def Lexeme.fault? : Lexeme → Option Fault
  | .fault found => some found
  | _ => none

/-- A token further down a text, by some bytes and some lines. -/
def Token.moved (bytes lines : Nat) (token : Token) : Token :=
  { token with
    line := token.line + lines
    span := ⟨token.span.offset + bytes, token.span.length⟩ }

/-- A fault further down a text, by some bytes and some lines. -/
def Fault.moved (bytes lines : Nat) (fault : Fault) : Fault :=
  { fault with
    line := fault.line + lines
    span := ⟨fault.span.offset + bytes, fault.span.length⟩ }

namespace Piece

/-- The tokens among pieces one behind the other. -/
def tokensFrom (offset line : Nat) (pieces : List Piece) : List Token :=
  (lexemesFrom offset line pieces).filterMap Lexeme.token?

/-- The faults among pieces one behind the other. -/
def faultsFrom (offset line : Nat) (pieces : List Piece) : List Fault :=
  (lexemesFrom offset line pieces).filterMap Lexeme.fault?

/-! ## Pieces side by side -/

@[simp] theorem flatten_nil : flatten [] = [] := rfl

@[simp] theorem flatten_cons (piece : Piece) (pieces : List Piece) :
    flatten (piece :: pieces) = piece.text ++ flatten pieces := rfl

@[simp] theorem flatten_append (front back : List Piece) :
    flatten (front ++ back) = flatten front ++ flatten back := by
  simp [flatten]

theorem lexemesFrom_append (offset line : Nat) (front back : List Piece) :
    lexemesFrom offset line (front ++ back) =
      lexemesFrom offset line front ++
        lexemesFrom (offset + Text.bytes (flatten front))
          (line + Text.lineFeeds (flatten front)) back := by
  induction front generalizing offset line with
  | nil => rfl
  | cons piece front ih =>
      simp only [List.cons_append, lexemesFrom, ih, flatten_cons, Text.bytes_append,
        Text.lineFeeds_append, Nat.add_assoc]

theorem tokensFrom_append (offset line : Nat) (front back : List Piece) :
    tokensFrom offset line (front ++ back) =
      tokensFrom offset line front ++
        tokensFrom (offset + Text.bytes (flatten front))
          (line + Text.lineFeeds (flatten front)) back := by
  simp only [tokensFrom, lexemesFrom_append, List.filterMap_append]

theorem faultsFrom_append (offset line : Nat) (front back : List Piece) :
    faultsFrom offset line (front ++ back) =
      faultsFrom offset line front ++
        faultsFrom (offset + Text.bytes (flatten front))
          (line + Text.lineFeeds (flatten front)) back := by
  simp only [faultsFrom, lexemesFrom_append, List.filterMap_append]

theorem tokensFrom_isPrefix_append (offset line : Nat) (front back : List Piece) :
    tokensFrom offset line front <+: tokensFrom offset line (front ++ back) := by
  rw [tokensFrom_append]
  exact List.prefix_append _ _

theorem faultsFrom_isPrefix_append (offset line : Nat) (front back : List Piece) :
    faultsFrom offset line front <+: faultsFrom offset line (front ++ back) := by
  rw [faultsFrom_append]
  exact List.prefix_append _ _

/-- Trivia only move what stands behind them. -/
@[simp] theorem tokensFrom_trivia (offset line : Nat) (text : List Char) (pieces : List Piece) :
    tokensFrom offset line (⟨text, .trivia⟩ :: pieces) =
      tokensFrom (offset + Text.bytes text) (line + Text.lineFeeds text) pieces := rfl

@[simp] theorem faultsFrom_trivia (offset line : Nat) (text : List Char) (pieces : List Piece) :
    faultsFrom offset line (⟨text, .trivia⟩ :: pieces) =
      faultsFrom (offset + Text.bytes text) (line + Text.lineFeeds text) pieces := rfl

/-! ## Pieces further down -/

theorem token?_lexemeAt_moved (piece : Piece) (offset line bytes lines : Nat) :
    (piece.lexemeAt (offset + bytes) (line + lines)).token? =
      (piece.lexemeAt offset line).token?.map (Token.moved bytes lines) := by
  unfold lexemeAt
  cases piece.sense <;> rfl

theorem fault?_lexemeAt_moved (piece : Piece) (offset line bytes lines : Nat) :
    (piece.lexemeAt (offset + bytes) (line + lines)).fault? =
      (piece.lexemeAt offset line).fault?.map (Fault.moved bytes lines) := by
  unfold lexemeAt
  cases piece.sense with
  | fault cause => simp [Lexeme.fault?, Fault.moved, Nat.add_right_comm]
  | _ => rfl

/-- What stands further down is found there unchanged otherwise. -/
theorem filterMap_lexemesFrom_moved {α : Type} {pick : Lexeme → Option α} {move : α → α}
    {bytes lines : Nat}
    (hpick : ∀ piece offset line, pick (lexemeAt piece (offset + bytes) (line + lines)) =
      (pick (lexemeAt piece offset line)).map move)
    (offset line : Nat) (pieces : List Piece) :
    (lexemesFrom (offset + bytes) (line + lines) pieces).filterMap pick =
      ((lexemesFrom offset line pieces).filterMap pick).map move := by
  induction pieces generalizing offset line with
  | nil => rfl
  | cons piece pieces ih =>
      have hrest := ih (offset + Text.bytes piece.text) (line + Text.lineFeeds piece.text)
      rw [lexemesFrom, lexemesFrom, Nat.add_right_comm offset, Nat.add_right_comm line,
        List.filterMap_cons, List.filterMap_cons, hrest, hpick]
      cases pick (piece.lexemeAt offset line) <;> rfl

theorem tokensFrom_moved (offset line bytes lines : Nat) (pieces : List Piece) :
    tokensFrom (offset + bytes) (line + lines) pieces =
      (tokensFrom offset line pieces).map (Token.moved bytes lines) :=
  filterMap_lexemesFrom_moved
    (fun piece offset line => token?_lexemeAt_moved piece offset line bytes lines)
    offset line pieces

theorem faultsFrom_moved (offset line bytes lines : Nat) (pieces : List Piece) :
    faultsFrom (offset + bytes) (line + lines) pieces =
      (faultsFrom offset line pieces).map (Fault.moved bytes lines) :=
  filterMap_lexemesFrom_moved
    (fun piece offset line => fault?_lexemeAt_moved piece offset line bytes lines)
    offset line pieces

/-! ## Which piece a lexeme comes from -/

theorem exists_piece_of_mem_lexemesFrom {offset line : Nat} {pieces : List Piece} {lexeme : Lexeme}
    (hmem : lexeme ∈ lexemesFrom offset line pieces) :
    ∃ front piece back, pieces = front ++ piece :: back ∧
      lexeme = piece.lexemeAt (offset + Text.bytes (flatten front))
        (line + Text.lineFeeds (flatten front)) := by
  induction pieces generalizing offset line with
  | nil => simp [lexemesFrom] at hmem
  | cons piece pieces ih =>
      rcases List.mem_cons.mp hmem with rfl | hmem
      · exact ⟨[], piece, pieces, rfl, rfl⟩
      · obtain ⟨front, found, back, rfl, rfl⟩ := ih hmem
        refine ⟨piece :: front, found, back, rfl, ?_⟩
        rw [flatten_cons, Text.bytes_append, Text.lineFeeds_append, Nat.add_assoc, Nat.add_assoc]

theorem exists_piece_of_mem_tokensFrom {offset line : Nat} {pieces : List Piece} {token : Token}
    (hmem : token ∈ tokensFrom offset line pieces) :
    ∃ front piece back, pieces = front ++ piece :: back ∧
      piece.sense = .token token.kind token.literal ∧
      token.lexeme = .ofList piece.text ∧
      token.line = line + Text.lineFeeds (flatten front) ∧
      token.span = ⟨offset + Text.bytes (flatten front), Text.bytes piece.text⟩ := by
  obtain ⟨lexeme, hlexeme, htoken⟩ := List.mem_filterMap.mp hmem
  obtain ⟨front, piece, back, rfl, rfl⟩ := exists_piece_of_mem_lexemesFrom hlexeme
  refine ⟨front, piece, back, rfl, ?_⟩
  unfold lexemeAt at htoken
  cases hsense : piece.sense with
  | token kind literal =>
      rw [hsense] at htoken
      cases htoken
      exact ⟨rfl, rfl, rfl, rfl⟩
  | trivia => rw [hsense] at htoken; cases htoken
  | fault cause => rw [hsense] at htoken; cases htoken

theorem exists_piece_of_mem_faultsFrom {offset line : Nat} {pieces : List Piece} {fault : Fault}
    (hmem : fault ∈ faultsFrom offset line pieces) :
    ∃ front piece back, pieces = front ++ piece :: back ∧ piece.sense = .fault fault.cause ∧
      fault.line = line + Text.lineFeeds (flatten (front ++ [piece])) ∧
      fault.span = ⟨offset + Text.bytes (flatten front), Text.bytes piece.text⟩ := by
  obtain ⟨lexeme, hlexeme, hfault⟩ := List.mem_filterMap.mp hmem
  obtain ⟨front, piece, back, rfl, rfl⟩ := exists_piece_of_mem_lexemesFrom hlexeme
  refine ⟨front, piece, back, rfl, ?_⟩
  unfold lexemeAt at hfault
  cases hsense : piece.sense with
  | fault cause =>
      rw [hsense] at hfault
      cases hfault
      refine ⟨rfl, ?_, rfl⟩
      simp [Nat.add_assoc]
  | trivia => rw [hsense] at hfault; cases hfault
  | token kind literal => rw [hsense] at hfault; cases hfault

/-- A piece at fault is found as one. -/
theorem exists_mem_faultsFrom {pieces : List Piece} {piece : Piece} {cause : Fault.Cause}
    (hmem : piece ∈ pieces) (hsense : piece.sense = .fault cause) (offset line : Nat) :
    ∃ fault ∈ faultsFrom offset line pieces, fault.cause = cause := by
  obtain ⟨front, back, rfl⟩ := List.append_of_mem hmem
  obtain ⟨text, sense⟩ := piece
  obtain rfl : sense = _ := hsense
  rw [faultsFrom_append]
  exact ⟨_, List.mem_append_right _ List.mem_cons_self, rfl⟩

/-- A fault comes from a piece that is one. -/
theorem exists_sense_of_mem_faultsFrom {offset line : Nat} {pieces : List Piece} {fault : Fault}
    (hmem : fault ∈ faultsFrom offset line pieces) :
    ∃ piece ∈ pieces, piece.sense = .fault fault.cause := by
  obtain ⟨front, piece, back, rfl, hsense, _⟩ := exists_piece_of_mem_faultsFrom hmem
  exact ⟨piece, by simp, hsense⟩

theorem faultsFrom_eq_nil {pieces : List Piece}
    (hsense : ∀ piece ∈ pieces, ∀ cause, piece.sense ≠ .fault cause) (offset line : Nat) :
    faultsFrom offset line pieces = [] := by
  refine List.eq_nil_iff_forall_not_mem.mpr fun fault hmem => ?_
  obtain ⟨piece, hpiece, hfault⟩ := exists_sense_of_mem_faultsFrom hmem
  exact hsense piece hpiece fault.cause hfault

end Piece

end LoxTokens
