import LoxTokens.Proofs.Numbers.Writing
import LoxTokens.Proofs.Splicing.Respacing

/-!
# Reading a text dump

A text dump shows a token on a line, with its kind, its lexeme and its value.
Nothing in it is quoted or escaped, so that a string over several lines takes
several lines of the dump as well, and what it holds may look like lines of
other tokens.  All the same a dump tells which tokens it shows:

```text
STRING "a
EOF  null" a
EOF  null
EOF  null
```

A kind has no blank in its name.  A lexeme either has none either, or it is a
string, and then its second quote is its last character.  So from the beginning
of a line one can tell where the lexeme ends, the lexeme decides the rest of the
line, and the next token begins behind that.

The dump of a scan has one line feed for each token, and each line feed in a
string stands there twice, in the lexeme and in the value.
-/

namespace LoxTokens

open Lexicon Piece Text Lexeme

/-! ## Tokens of a scan -/

/-- A token as scans find them: its lexeme is read as this token somewhere, or
it is the end of a text. -/
def Token.IsFound (token : Token) : Prop :=
  (∃ rest, Reads token.piece rest) ∨ token.piece = ⟨[], .token .eof none⟩

theorem isFound_of_mem_tokens {source : String} {token : Token}
    (hmem : token ∈ (scan source).tokens) : token.IsFound := by
  obtain ⟨pieces, hcut⟩ := exists_maximalMunch source.toList
  rw [scan_of_cut hcut, ← inner_of_cut hcut] at hmem
  rcases List.mem_append.mp hmem with hinner | hlast
  · exact Or.inl (exists_reads_of_mem_inner hinner)
  · rw [List.mem_singleton.mp hlast]
    exact Or.inr rfl

/-- Of all tokens only strings have strings for values. -/
theorem literal_ne_string_of_reads {piece : Piece} {rest : List Char} {kind : Token.Kind}
    {literal : Option Literal} (hread : Reads piece rest)
    (hsense : piece.sense = .token kind literal) (hquote : piece.text.head? ≠ some '"')
    (value : String) : literal ≠ some (.string value) := by
  cases hread with
  | string _ => exact absurd rfl hquote
  | _ =>
      cases hsense
      try exact fun hvalue => nomatch hvalue

namespace Token

variable {token other : Token}

/-- A lexeme is a string, which its second quote ends, or has no blank in it. -/
theorem IsFound.lexeme_cases (hfound : token.IsFound) :
    (∃ body, '"' ∉ body ∧ token.lexeme.toList = '"' :: (body ++ ['"']) ∧
      token.literal = some (.string (.ofList body))) ∨
    (token.lexeme.toList.head? ≠ some '"' ∧ (∀ c ∈ token.lexeme.toList, ¬ IsSpace c) ∧
      ∀ value, token.literal ≠ some (.string value)) := by
  rcases hfound with ⟨rest, hread⟩ | heof
  · by_cases hquote : token.lexeme.toList.head? = some '"'
    · obtain ⟨body, hbody, hpiece | hpiece⟩ := hread.exists_body hquote
      · obtain ⟨htext, hsense⟩ := Piece.mk.inj hpiece
        exact Or.inl ⟨body, hbody, htext, (Sense.token.inj hsense).2⟩
      · cases (Piece.mk.inj hpiece).2
    · exact Or.inr ⟨hquote, not_isSpace_of_reads hread rfl hquote,
        literal_ne_string_of_reads hread rfl hquote⟩
  · obtain ⟨htext, hsense⟩ := Piece.mk.inj heof
    refine Or.inr ?_
    rw [htext, (Sense.token.inj hsense).2]
    simp

theorem spells_of_reads {piece : Piece} {rest : List Char} {kind : Token.Kind}
    {literal : Option Literal} (hread : Reads piece rest)
    (hsense : piece.sense = .token kind literal) : Spells piece.text piece.sense := by
  obtain ⟨text, sense⟩ := piece
  obtain rfl : sense = _ := hsense
  cases hread.belongs with
  | spelled hspells => exact hspells

/-- The lexeme of a token decides what the token is. -/
theorem IsFound.meaning_eq (hfound : token.IsFound) (hother : other.IsFound)
    (hlexeme : token.lexeme = other.lexeme) : token.meaning = other.meaning := by
  have htext : token.piece.text = other.piece.text := congrArg String.toList hlexeme
  have hsense : token.piece.sense = other.piece.sense := by
    rcases hfound with ⟨rest, hread⟩ | heof <;> rcases hother with ⟨behind, hread'⟩ | heof'
    · have hspells := spells_of_reads hread rfl
      have hspells' := spells_of_reads hread' rfl
      rw [← htext] at hspells'
      have hbelongs : Belongs ⟨token.piece.text, token.piece.sense⟩ [] := .spelled hspells
      exact hbelongs.sense_eq (.spelled hspells')
    · rw [heof'] at htext
      exact absurd htext hread.text_ne_nil
    · rw [heof] at htext
      exact absurd htext.symm hread'.text_ne_nil
    · rw [heof, heof']
  obtain ⟨hkind, hliteral⟩ := Sense.token.inj hsense
  unfold meaning
  rw [hlexeme, hkind, hliteral]

/-- A line shows nothing but what the token is. -/
theorem chars_eq_of_meaning_eq (hmeaning : token.meaning = other.meaning) :
    token.chars = other.chars := by
  simp only [meaning, Prod.mk.injEq] at hmeaning
  obtain ⟨hkind, hlexeme, hliteral⟩ := hmeaning
  unfold chars
  rw [hkind, hlexeme, hliteral]

/-! ## Where the lexeme ends -/

/-- Names of kinds are words. -/
theorem notMem_name_of_isSpace {c : Char} (hspace : IsSpace c) (kind : Token.Kind) :
    c ∉ kind.name.toList := by
  simp only [IsSpace, List.mem_cons, List.not_mem_nil, or_false] at hspace
  rcases hspace with rfl | rfl | rfl | rfl <;> cases kind with
  | keyword word => cases word <;> decide
  | _ => decide

/-- A text in front of a blank begins with a quote if the whole does. -/
theorem head?_eq_quote {text rest others : List Char}
    (hsame : text ++ ' ' :: rest = '"' :: others) : text.head? = some '"' := by
  cases text with
  | nil => exact absurd (List.cons.inj hsame).1 (by decide)
  | cons c text => exact congrArg some (List.cons.inj hsame).1

/-- Two lexemes are the same if what begins with the one and a blank also begins
with the other and a blank. -/
theorem IsFound.lexeme_eq (hfound : token.IsFound) (hother : other.IsFound)
    {rest behind : List Char}
    (hsame : token.lexeme.toList ++ ' ' :: rest = other.lexeme.toList ++ ' ' :: behind) :
    token.lexeme = other.lexeme := by
  apply String.toList_inj.mp
  rcases hfound.lexeme_cases with ⟨body, hbody, htext, _⟩ | ⟨hquote, hspace, _⟩ <;>
    rcases hother.lexeme_cases with ⟨body', hbody', htext', _⟩ | ⟨hquote', hspace', _⟩
  · -- both bodies go on up to the next quote
    rw [htext, htext'] at hsame ⊢
    simp only [List.cons_append, List.append_assoc, List.cons.injEq, true_and] at hsame
    obtain ⟨rfl, _⟩ := eq_of_stops (forall_ne_of_notMem hbody') (by simp)
      (forall_ne_of_notMem hbody) (by simp) hsame
    rfl
  · rw [htext] at hsame
    exact absurd (head?_eq_quote hsame.symm) hquote'
  · rw [htext'] at hsame
    exact absurd (head?_eq_quote hsame) hquote
  · -- both lexemes go on up to the next blank
    have hblank : ' ' ∉ token.lexeme.toList := fun hmem => hspace _ hmem (by simp [IsSpace])
    have hblank' : ' ' ∉ other.lexeme.toList := fun hmem => hspace' _ hmem (by simp [IsSpace])
    exact (eq_of_stops (forall_ne_of_notMem hblank') (by simp) (forall_ne_of_notMem hblank)
      (by simp) hsame).1

/-- A line of a dump, together with all that comes behind it, tells its
token. -/
theorem IsFound.meaning_eq_of_line (hfound : token.IsFound) (hother : other.IsFound)
    {rest behind : List Char}
    (hsame : token.chars ++ '\n' :: rest = other.chars ++ '\n' :: behind) :
    token.meaning = other.meaning := by
  apply hfound.meaning_eq hother
  unfold chars at hsame
  simp only [List.append_assoc, List.cons_append] at hsame
  -- the kinds go on up to the first blank, and the lexemes begin behind it
  have hname : ∀ kind : Token.Kind, ' ' ∉ kind.name.toList :=
    notMem_name_of_isSpace (by simp [IsSpace])
  obtain ⟨_, hbehind⟩ := eq_of_stops (forall_ne_of_notMem (hname other.kind)) (by simp)
    (forall_ne_of_notMem (hname token.kind)) (by simp) hsame
  exact hfound.lexeme_eq hother (List.cons.inj hbehind).2

/-- **A dump tells which tokens it shows.** -/
theorem map_meaning_eq_of_dump_eq {tokens others : List Token}
    (htokens : ∀ token ∈ tokens, token.IsFound) (hothers : ∀ other ∈ others, other.IsFound)
    (hsame : dump tokens = dump others) : tokens.map meaning = others.map meaning := by
  induction tokens generalizing others with
  | nil =>
      cases others with
      | nil => rfl
      | cons other others => simp [dump] at hsame
  | cons token tokens ih =>
      cases others with
      | nil => simp [dump] at hsame
      | cons other others =>
          obtain ⟨hfound, htokens⟩ := List.forall_mem_cons.mp htokens
          obtain ⟨hother, hothers⟩ := List.forall_mem_cons.mp hothers
          have hlines :
              token.chars ++ '\n' :: dump tokens = other.chars ++ '\n' :: dump others := by
            simpa [dump] using hsame
          -- the first lines show the same, so what is left is the same as well
          have hmeaning := hfound.meaning_eq_of_line hother hlines
          rw [chars_eq_of_meaning_eq hmeaning, List.append_cancel_left_eq] at hlines
          rw [List.map_cons, List.map_cons, hmeaning, ih htokens hothers (List.cons.inj hlines).2]

/-! ## Line feeds -/

/-- What the token shows of a string, if its value is one. -/
def stringChars (token : Token) : List Char :=
  match token.literal with
  | some (.string value) => value.toList
  | _ => []

/-- A value that is no string stands on one line. -/
theorem lineFeed_notMem_chars (value : Binary64) : '\n' ∉ value.chars := by
  intro hmem
  unfold Binary64.chars at hmem
  split at hmem
  · rcases Numeral.mem_chars hmem with hdigit | hsign
    · exact absurd hdigit (by decide)
    · exact absurd hsign (by decide)
  · split at hmem
    · exact absurd hmem (by decide)
    · split at hmem
      · exact absurd hmem (by decide)
      · exact absurd hmem (by decide)

/-- The lexeme and the value of a string show its line feeds, and nothing else
of a token does. -/
theorem IsFound.lineFeeds_chars (hfound : token.IsFound) :
    lineFeeds token.chars = 2 * lineFeeds token.stringChars := by
  have hname : lineFeeds token.kind.name.toList = 0 :=
    lineFeeds_eq_zero (notMem_name_of_isSpace (by simp [IsSpace]) token.kind)
  have hcount : lineFeeds token.lexeme.toList = lineFeeds token.stringChars ∧
      lineFeeds ((token.literal.map Literal.chars).getD "null".toList) =
        lineFeeds token.stringChars := by
    rcases hfound.lexeme_cases with ⟨body, _, htext, hliteral⟩ | ⟨_, hspace, hliteral⟩
    · rw [stringChars, htext, hliteral]
      constructor
      · simp [lineFeeds]
      · rfl
    · have hlexeme : '\n' ∉ token.lexeme.toList := fun hmem => hspace _ hmem (by simp [IsSpace])
      rw [lineFeeds_eq_zero hlexeme]
      unfold stringChars
      cases hvalue : token.literal with
      | none => exact ⟨rfl, rfl⟩
      | some literal =>
          cases literal with
          | number value => exact ⟨rfl, lineFeeds_eq_zero (lineFeed_notMem_chars value)⟩
          | string value => exact absurd hvalue (hliteral value)
  obtain ⟨hlexeme, hliteral⟩ := hcount
  calc lineFeeds token.chars
      = lineFeeds token.kind.name.toList + lineFeeds token.lexeme.toList +
          lineFeeds ((token.literal.map Literal.chars).getD "null".toList) := by
        simp [chars, lineFeeds, Nat.add_assoc]
    _ = 2 * lineFeeds token.stringChars := by rw [hname, hlexeme, hliteral]; omega

theorem lineFeeds_dump {tokens : List Token} (htokens : ∀ token ∈ tokens, token.IsFound) :
    lineFeeds (dump tokens) = tokens.length + 2 * lineFeeds (tokens.flatMap stringChars) := by
  induction tokens with
  | nil => rfl
  | cons token tokens ih =>
      obtain ⟨hfound, htokens⟩ := List.forall_mem_cons.mp htokens
      have hline := hfound.lineFeeds_chars
      have hrest := ih htokens
      simp only [dump, List.flatMap_cons, lineFeeds_append, List.length_cons] at hrest ⊢
      rw [hline, hrest, show lineFeeds ['\n'] = 1 from rfl]
      omega

end Token

/-- **Equal dumps show equal tokens.**  Of two sources with the same text dump
the scans agree in every kind, lexeme and value, the end of the text included,
whatever lines their strings imitate.  And the dump of a source has a line feed
for each token and two for each line feed in the strings. -/
theorem dump_scan (source : String) :
    (∀ other : String, Token.dump (scan source).tokens = Token.dump (scan other).tokens →
      (scan source).tokens.map Token.meaning = (scan other).tokens.map Token.meaning) ∧
    lineFeeds (Token.dump (scan source).tokens) =
      (scan source).tokens.length +
        2 * lineFeeds ((scan source).tokens.flatMap Token.stringChars) := by
  constructor
  · intro other hsame
    exact Token.map_meaning_eq_of_dump_eq (fun _ => isFound_of_mem_tokens)
      (fun _ => isFound_of_mem_tokens) hsame
  · exact Token.lineFeeds_dump fun _ => isFound_of_mem_tokens

/-- The string of these two sources goes on over a line and imitates the last
line of a dump; only the layout behind it differs. -/
theorem dump_scan_imitation :
    Token.dump (scan "\"a\nEOF  null\" b").tokens =
        Token.dump (scan "\"a\nEOF  null\"\n\tb").tokens ∧
      (scan "\"a\nEOF  null\" b").tokens.map Token.meaning =
        (scan "\"a\nEOF  null\"\n\tb").tokens.map Token.meaning := by
  have hsame : Token.dump (scan "\"a\nEOF  null\" b").tokens =
      Token.dump (scan "\"a\nEOF  null\"\n\tb").tokens := by
    decide +kernel
  exact ⟨hsame, (dump_scan "\"a\nEOF  null\" b").1 "\"a\nEOF  null\"\n\tb" hsame⟩

end LoxTokens
