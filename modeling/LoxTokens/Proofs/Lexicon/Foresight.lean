import LoxTokens.Proofs.Lexicon.Beginnings

/-!
# Where lexemes end

Maximal munch looks at all prefixes of a text.  A reader does not: the first
character tells what the lexeme can be, and at most two characters behind a
piece tell that it ends there.  `Reads` states this local rule for each
language, and the result of this file is that the two ways of cutting agree,

```text
IsLongest piece rest ↔ Reads piece rest
```

From right to left, whatever belongs to a language goes on in the way that its
first character allows, and a rest that does not go on so cannot make it
longer.  From left to right, every text begins with a piece that is read, and
the longest piece is unique.
-/

namespace LoxTokens.Lexicon

open Text Start

/-! ## What stands behind a lexeme -/

/-- A rest of text with which a number goes on behind its whole digits. -/
def StartsFraction (rest : List Char) : Prop :=
  rest.head? = some '.' ∧ rest.tail.head?.any Char.isDigit = true

/-- The pieces that a reader takes from a text when the given rest is left: the
first character tells the language, and the rest does not go on with it. -/
inductive Reads : Piece → List Char → Prop where
  | punctuation {c kind rest} : ofChar c = .punctuation kind → Reads ⟨[c], .token kind none⟩ rest
  | operator {c alone extended rest} : ofChar c = .operator alone extended →
      rest.head? ≠ some '=' → Reads ⟨[c], .token alone none⟩ rest
  | extendedOperator {c alone extended rest} : ofChar c = .operator alone extended →
      Reads ⟨[c, '='], .token extended none⟩ rest
  | slash {rest} : rest.head? ≠ some '/' → Reads ⟨['/'], .token .slash none⟩ rest
  | comment {body rest} : '\n' ∉ body → Stops (· ≠ '\n') rest →
      Reads ⟨'/' :: '/' :: body, .trivia⟩ rest
  | blank {c rest} : ofChar c = .blank → Reads ⟨[c], .trivia⟩ rest
  | lineFeed {rest} : Reads ⟨['\n'], .trivia⟩ rest
  | string {body rest} : '"' ∉ body →
      Reads ⟨'"' :: (body ++ ['"']), .token .string (some (.string (.ofList body)))⟩ rest
  | openString {body} : '"' ∉ body → Reads ⟨'"' :: body, .fault .openString⟩ []
  | integer {first whole rest} : first.isDigit = true → (∀ c ∈ whole, c.isDigit = true) →
      Stops Char.isDigit rest → ¬ StartsFraction rest →
      Reads ⟨first :: whole, numberSense (first :: whole) []⟩ rest
  | decimal {first whole fraction rest} : first.isDigit = true →
      (∀ c ∈ whole, c.isDigit = true) → fraction ≠ [] → (∀ c ∈ fraction, c.isDigit = true) →
      Stops Char.isDigit rest →
      Reads ⟨first :: (whole ++ '.' :: fraction), numberSense (first :: whole) fraction⟩ rest
  | word {first others rest} : isLetter first = true → (∀ c ∈ others, isWordChar c = true) →
      Stops isWordChar rest →
      Reads ⟨first :: others, .token (.ofWord (.ofList (first :: others))) none⟩ rest
  | foreign {c rest} : ofChar c = .foreign → Reads ⟨[c], .fault (.foreignCharacter c)⟩ rest

/-! ## What is read belongs -/

theorem IsWord.spells {text : List Char} (hword : IsWord text) :
    Spells text (.token (.ofWord (.ofList text)) none) := by
  by_cases hkeyword : ∃ word : Keyword, word.spelling.toList = text
  · obtain ⟨word, rfl⟩ := hkeyword
    rw [String.ofList_toList, ofWord_spelling]
    exact .keyword word
  · rw [not_exists] at hkeyword
    rw [ofWord_of_forall_ne hkeyword]
    exact .name hword hkeyword

theorem isDigits_cons {first : Char} {others : List Char} (hfirst : first.isDigit = true)
    (hothers : ∀ c ∈ others, c.isDigit = true) : IsDigits (first :: others) := by
  refine ⟨by simp, fun c hc => isDigit_iff.mp ?_⟩
  rcases List.mem_cons.mp hc with rfl | hc
  · exact hfirst
  · exact hothers c hc

theorem isWord_cons {first : Char} {others : List Char} (hfirst : isLetter first = true)
    (hothers : ∀ c ∈ others, isWordChar c = true) : IsWord (first :: others) :=
  ⟨first, others, rfl, isLetter_iff.mp hfirst, fun c hc => isWordChar_iff.mp (hothers c hc)⟩

theorem not_spells_of_ofChar {c : Char} (hstart : ofChar c = .foreign) (others : List Char)
    (sense : Sense) : ¬ Spells (c :: others) sense := by
  intro hspells
  obtain ⟨first, behind, htext, hgoesOn⟩ := hspells.goesOn
  obtain ⟨rfl, rfl⟩ := List.cons.inj htext
  rw [hstart] at hgoesOn
  exact hgoesOn

theorem Reads.belongs {piece : Piece} {rest : List Char} (hread : Reads piece rest) :
    Belongs piece rest := by
  cases hread with
  | @punctuation c kind _ hc =>
      exact .spelled (.punctuation (admits_of_ofChar hc))
  | @operator c alone extended _ hc _ =>
      exact .spelled (.operator (admits_of_ofChar hc))
  | @extendedOperator c alone extended _ hc =>
      exact .spelled (.extendedOperator (admits_of_ofChar hc))
  | slash _ => exact .spelled .slash
  | comment hbody _ => exact .spelled (.comment hbody)
  | @blank c _ hc =>
      exact .spelled (.blank (admits_of_ofChar hc))
  | lineFeed => exact .spelled .lineFeed
  | string hbody => exact .spelled (.string hbody)
  | openString hbody => exact .openString hbody
  | integer hfirst hwhole _ _ => exact .spelled (.integer (isDigits_cons hfirst hwhole))
  | decimal hfirst hwhole hne hfraction _ =>
      exact .spelled (.decimal (isDigits_cons hfirst hwhole)
        ⟨hne, fun c hc => isDigit_iff.mp (hfraction c hc)⟩)
  | word hfirst hothers _ => exact .spelled (isWord_cons hfirst hothers).spells
  | foreign hc => exact .foreign (not_spells_of_ofChar hc)

/-! ## Nothing longer belongs -/

theorem length_le_of_not_startsFraction {whole rest digits tail behind : List Char}
    (hwhole : ∀ c ∈ whole, c.isDigit = true) (hrest : Stops Char.isDigit rest)
    (hnone : ¬ StartsFraction rest) (hdigits : ∀ c ∈ digits, c.isDigit = true)
    (htail : IsFraction tail) (hsame : digits ++ (tail ++ behind) = whole ++ rest) :
    (digits ++ tail).length ≤ whole.length := by
  obtain rfl | ⟨fraction, hne, hfraction, rfl⟩ := htail
  · rw [List.append_nil]
    exact length_le_of_stops hdigits hrest hsame
  · -- both runs of digits end, so the rest would start with the fraction
    obtain ⟨d, fraction, rfl⟩ := List.exists_cons_of_ne_nil hne
    obtain ⟨_, rfl⟩ := eq_of_stops hwhole hrest hdigits (by simp) hsame
    exact absurd ⟨rfl, by simp [hfraction d]⟩ hnone

theorem length_le_of_fraction {whole fraction rest digits tail behind : List Char}
    (hwhole : ∀ c ∈ whole, c.isDigit = true) (hrest : Stops Char.isDigit rest)
    (hdigits : ∀ c ∈ digits, c.isDigit = true) (htail : IsFraction tail)
    (hsame : digits ++ (tail ++ behind) = whole ++ '.' :: (fraction ++ rest)) :
    (digits ++ tail).length ≤ (whole ++ '.' :: fraction).length := by
  obtain rfl | ⟨other, _, hother, rfl⟩ := htail
  · have hle := length_le_of_stops hdigits (by simp) hsame
    simp only [List.append_nil, List.length_append]
    omega
  · obtain ⟨rfl, htails⟩ := eq_of_stops hwhole (by simp) hdigits (by simp) hsame
    have hle := length_le_of_stops hother hrest (List.cons.inj htails).2
    simp only [List.length_append, List.length_cons]
    omega

theorem Reads.length_le_of_goesOn {piece : Piece} {rest : List Char} (hread : Reads piece rest)
    {first : Char} {others behind : List Char} {sense : Sense}
    (hgoesOn : (ofChar first).GoesOn first others sense)
    (hsame : first :: (others ++ behind) = piece.text ++ rest) :
    (first :: others).length ≤ piece.text.length := by
  -- the two begin with the same character, so both go on in the way that it allows
  cases hread <;>
    simp only [List.cons_append, List.nil_append, List.append_assoc, List.cons.injEq] at hsame <;>
    obtain ⟨rfl, hsame⟩ := hsame
  case punctuation hc =>
    rw [hc] at hgoesOn
    obtain ⟨rfl, _⟩ := hgoesOn
    simp
  case operator hrest hc =>
    rw [hc] at hgoesOn
    obtain ⟨rfl, _⟩ | ⟨rfl, _⟩ := hgoesOn
    · simp
    · exact absurd (by rw [← hsame]; rfl) hrest
  case extendedOperator hc =>
    rw [hc] at hgoesOn
    obtain ⟨rfl, _⟩ | ⟨rfl, _⟩ := hgoesOn <;> simp
  case slash hrest =>
    obtain ⟨rfl, _⟩ | ⟨body, _, rfl, _⟩ := hgoesOn
    · simp
    · exact absurd (by rw [← hsame]; rfl) hrest
  case comment hrest =>
    obtain ⟨rfl, _⟩ | ⟨other, hother, rfl, _⟩ := hgoesOn
    · simp
    · have hle := length_le_of_stops (forall_ne_of_notMem hother) hrest (List.cons.inj hsame).2
      simpa using hle
  case blank hc =>
    rw [hc] at hgoesOn
    obtain ⟨rfl, _⟩ := hgoesOn
    simp
  case lineFeed =>
    obtain ⟨rfl, _⟩ := hgoesOn
    simp
  case string =>
    obtain ⟨other, hother, rfl, _⟩ := hgoesOn
    rw [List.append_assoc] at hsame
    have hle := length_le_of_stops (forall_ne_of_notMem hother) (by simp) hsame
    simpa using hle
  case openString hbody =>
    obtain ⟨other, _, rfl, _⟩ := hgoesOn
    rw [List.append_nil] at hsame
    exact absurd (by rw [← hsame]; simp) hbody
  case integer whole hwhole hrest hnone hfirst =>
    rw [ofChar_eq_of_admits .digit (by simp) hfirst] at hgoesOn
    obtain ⟨digits, tail, hdigits, rfl, htail, _⟩ := hgoesOn
    rw [List.append_assoc] at hsame
    simpa using length_le_of_not_startsFraction hwhole hrest hnone hdigits htail hsame
  case decimal whole fraction hwhole hne hfraction hrest hfirst =>
    rw [ofChar_eq_of_admits .digit (by simp) hfirst] at hgoesOn
    obtain ⟨digits, tail, hdigits, rfl, htail, _⟩ := hgoesOn
    rw [List.append_assoc] at hsame
    simpa using length_le_of_fraction hwhole hrest hdigits htail hsame
  case word hothers hrest hfirst =>
    rw [ofChar_eq_of_admits .letter (by simp) hfirst] at hgoesOn
    simpa using length_le_of_stops hgoesOn.1 hrest hsame
  case foreign hc =>
    rw [hc] at hgoesOn
    exact hgoesOn.elim

theorem Reads.text_ne_nil {piece : Piece} {rest : List Char} (hread : Reads piece rest) :
    piece.text ≠ [] := by
  cases hread <;> simp

/-- What is read from a quote on is a string that is closed, or takes all. -/
theorem Reads.quote_mem_or_rest_eq_nil {piece : Piece} {rest body : List Char}
    (hread : Reads piece rest) (hsame : '"' :: body = piece.text ++ rest) :
    '"' ∈ body ∨ rest = [] := by
  cases hread with
  | string _ => exact Or.inl (by rw [(List.cons.inj hsame).2]; simp)
  | openString _ => exact Or.inr rfl
  | integer hfirst _ _ _ | decimal hfirst _ _ _ _ | word hfirst _ _ =>
      rw [← (List.cons.inj hsame).1] at hfirst
      exact absurd hfirst (by decide)
  | slash _ | comment _ _ | lineFeed => exact absurd (List.cons.inj hsame).1 (by decide)
  | punctuation hc | operator hc _ | extendedOperator hc | blank hc | foreign hc =>
      rw [← (List.cons.inj hsame).1] at hc
      cases hc

/-- Only strings begin with a quote. -/
theorem Reads.exists_body {piece : Piece} {rest : List Char} (hread : Reads piece rest)
    (hquote : piece.text.head? = some '"') :
    ∃ body, '"' ∉ body ∧
      (piece = ⟨'"' :: (body ++ ['"']), .token .string (some (.string (.ofList body)))⟩ ∨
        piece = ⟨'"' :: body, .fault .openString⟩) := by
  cases hread with
  | string hbody => exact ⟨_, hbody, Or.inl rfl⟩
  | openString hbody => exact ⟨_, hbody, Or.inr rfl⟩
  | integer hfirst _ _ _ | decimal hfirst _ _ _ _ | word hfirst _ _ =>
      rw [Option.some.inj hquote] at hfirst
      exact absurd hfirst (by decide)
  | slash _ | comment _ _ | lineFeed => exact absurd (Option.some.inj hquote) (by decide)
  | punctuation hc | operator hc _ | extendedOperator hc | blank hc | foreign hc =>
      rw [Option.some.inj hquote] at hc
      cases hc

theorem Reads.isLongest {piece : Piece} {rest : List Char} (hread : Reads piece rest) :
    IsLongest piece rest := by
  refine ⟨hread.belongs, fun other behind hsame hother => ?_⟩
  cases hother with
  | spelled hspells =>
      obtain ⟨first, others, htext, hgoesOn⟩ := hspells.goesOn
      dsimp only at hsame ⊢
      rw [htext] at hsame ⊢
      exact hread.length_le_of_goesOn hgoesOn hsame
  | @openString body hbody =>
      rw [List.append_nil] at hsame
      obtain hmem | rfl := hread.quote_mem_or_rest_eq_nil hsame
      · exact absurd hmem hbody
      · have htext := hsame.trans (List.append_nil _)
        exact Nat.le_of_eq (congrArg List.length htext)
  | foreign _ => exact List.length_pos_iff.mpr hread.text_ne_nil

/-! ## A piece that is read begins every text -/

theorem exists_reads_operator {c : Char} {alone extended : Token.Kind}
    (hc : ofChar c = .operator alone extended) (unread : List Char) :
    ∃ piece rest, c :: unread = piece.text ++ rest ∧ Reads piece rest := by
  by_cases hnext : unread.head? = some '='
  · obtain ⟨rest, rfl⟩ := List.head?_eq_some_iff.mp hnext
    exact ⟨⟨[c, '='], _⟩, rest, rfl, .extendedOperator hc⟩
  · exact ⟨⟨[c], _⟩, unread, rfl, .operator hc hnext⟩

theorem exists_reads_slash (unread : List Char) :
    ∃ piece rest, '/' :: unread = piece.text ++ rest ∧ Reads piece rest := by
  by_cases hnext : unread.head? = some '/'
  · obtain ⟨rest, rfl⟩ := List.head?_eq_some_iff.mp hnext
    exact ⟨⟨'/' :: '/' :: rest.takeWhile (· ≠ '\n'), _⟩, rest.dropWhile (· ≠ '\n'), by simp,
      .comment (notMem_takeWhile_ne _ _) (stops_dropWhile _)⟩
  · exact ⟨⟨['/'], _⟩, unread, rfl, .slash hnext⟩

theorem exists_reads_quote (unread : List Char) :
    ∃ piece rest, '"' :: unread = piece.text ++ rest ∧ Reads piece rest := by
  have hbody := notMem_takeWhile_ne '"' unread
  have hparts := List.takeWhile_append_dropWhile (p := (· ≠ '"')) (l := unread)
  have hstop : Stops (· ≠ '"') _ := stops_dropWhile unread
  cases hrest : unread.dropWhile (· ≠ '"') with
  | nil =>
      rw [hrest, List.append_nil] at hparts
      rw [hparts] at hbody
      exact ⟨⟨'"' :: unread, _⟩, [], by simp, .openString hbody⟩
  | cons c rest =>
      rw [hrest] at hparts hstop
      obtain rfl : c = '"' := by simpa using hstop
      refine ⟨⟨'"' :: (unread.takeWhile (· ≠ '"') ++ ['"']), _⟩, rest, ?_, .string hbody⟩
      conv => lhs; rw [← hparts]
      simp

theorem exists_reads_digit {first : Char} (hfirst : first.isDigit = true) (unread : List Char) :
    ∃ piece rest, first :: unread = piece.text ++ rest ∧ Reads piece rest := by
  have hwhole : ∀ c ∈ unread.takeWhile Char.isDigit, c.isDigit = true :=
    forall_mem_takeWhile unread
  have hparts := List.takeWhile_append_dropWhile (p := Char.isDigit) (l := unread)
  have hstop : Stops Char.isDigit (unread.dropWhile Char.isDigit) := stops_dropWhile unread
  -- only the two parts of the text matter from here on, not how they were found
  generalize unread.takeWhile Char.isDigit = whole at hwhole hparts
  generalize unread.dropWhile Char.isDigit = rest at hparts hstop
  subst hparts
  by_cases hfraction : StartsFraction rest
  · obtain ⟨hpoint, hnext⟩ := hfraction
    obtain ⟨behind, rfl⟩ := List.head?_eq_some_iff.mp hpoint
    refine ⟨⟨first :: (whole ++ '.' :: behind.takeWhile Char.isDigit), _⟩,
      behind.dropWhile Char.isDigit, by simp,
      .decimal hfirst hwhole ?_ (forall_mem_takeWhile _) (stops_dropWhile _)⟩
    cases behind with
    | nil => simp at hnext
    | cons d behind => simp_all
  · exact ⟨⟨first :: whole, _⟩, rest, rfl, .integer hfirst hwhole hstop hfraction⟩

theorem exists_reads_letter {first : Char} (hfirst : isLetter first = true)
    (unread : List Char) :
    ∃ piece rest, first :: unread = piece.text ++ rest ∧ Reads piece rest :=
  ⟨⟨first :: unread.takeWhile isWordChar, _⟩, unread.dropWhile isWordChar, by simp,
    .word hfirst (forall_mem_takeWhile _) (stops_dropWhile _)⟩

theorem exists_reads {text : List Char} (htext : text ≠ []) :
    ∃ piece rest, text = piece.text ++ rest ∧ Reads piece rest := by
  obtain ⟨c, unread, rfl⟩ := List.exists_cons_of_ne_nil htext
  cases hc : ofChar c with
  | punctuation kind => exact ⟨⟨[c], _⟩, unread, rfl, .punctuation hc⟩
  | operator alone extended => exact exists_reads_operator hc unread
  | slash =>
      obtain rfl : c = '/' := admits_of_ofChar hc
      exact exists_reads_slash unread
  | blank => exact ⟨⟨[c], _⟩, unread, rfl, .blank hc⟩
  | lineFeed =>
      obtain rfl : c = '\n' := admits_of_ofChar hc
      exact ⟨⟨['\n'], _⟩, unread, rfl, .lineFeed⟩
  | quote =>
      obtain rfl : c = '"' := admits_of_ofChar hc
      exact exists_reads_quote unread
  | digit => exact exists_reads_digit (admits_of_ofChar hc) unread
  | letter => exact exists_reads_letter (admits_of_ofChar hc) unread
  | foreign => exact ⟨⟨[c], _⟩, unread, rfl, .foreign hc⟩

/-! ## The longest piece is the one that is read -/

theorem Belongs.sense_eq {text rest : List Char} {sense other : Sense}
    (hsense : Belongs ⟨text, sense⟩ rest) (hother : Belongs ⟨text, other⟩ rest) :
    sense = other := by
  cases hsense with
  | spelled hspells =>
      obtain ⟨first, others, rfl, hgoesOn⟩ := hspells.goesOn
      cases hother with
      | spelled hspells' =>
          obtain ⟨_, _, htext, hgoesOn'⟩ := hspells'.goesOn
          obtain ⟨rfl, rfl⟩ := List.cons.inj htext
          exact hgoesOn.sense_eq hgoesOn'
      | openString hbody =>
          obtain ⟨body, _, rfl, _⟩ := hgoesOn
          exact absurd (by simp) hbody
      | foreign hforeign => exact absurd hspells (hforeign _ _)
  | openString hbody =>
      cases hother with
      | spelled hspells' =>
          obtain ⟨_, _, htext, hgoesOn'⟩ := hspells'.goesOn
          obtain ⟨rfl, rfl⟩ := List.cons.inj htext
          obtain ⟨body, _, rfl, _⟩ := hgoesOn'
          exact absurd (by simp) hbody
      | openString _ => rfl
      | foreign hforeign => exact absurd (@Spells.string [] (by simp)) (hforeign ['"'] _)
  | foreign hforeign =>
      cases hother with
      | spelled hspells' => exact absurd hspells' (hforeign _ _)
      | openString _ => exact absurd (@Spells.string [] (by simp)) (hforeign ['"'] _)
      | foreign _ => rfl

theorem IsLongest.unique {piece other : Piece} {rest behind : List Char}
    (hpiece : IsLongest piece rest) (hother : IsLongest other behind)
    (hsame : other.text ++ behind = piece.text ++ rest) : other = piece ∧ behind = rest := by
  have hle := hpiece.longest other behind hsame hother.belongs
  have hge := hother.longest piece rest hsame.symm hpiece.belongs
  obtain ⟨htext, rfl⟩ := List.append_inj hsame (Nat.le_antisymm hle hge)
  refine ⟨?_, rfl⟩
  obtain ⟨text, sense⟩ := piece
  obtain ⟨text', sense'⟩ := other
  obtain rfl : text' = text := htext
  rw [hother.belongs.sense_eq hpiece.belongs]

theorem isLongest_iff_reads {piece : Piece} {rest : List Char} :
    IsLongest piece rest ↔ Reads piece rest := by
  refine ⟨fun hlongest => ?_, Reads.isLongest⟩
  have hne : piece.text ++ rest ≠ [] := by
    obtain ⟨text, sense⟩ := piece
    cases hlongest.belongs with
    | spelled hspells =>
        obtain ⟨first, others, rfl, _⟩ := hspells.goesOn
        simp
    | openString _ => simp
    | foreign _ => simp
  -- some piece is read from the text, and the longest one is unique
  obtain ⟨other, behind, hsame, hread⟩ := exists_reads hne
  obtain ⟨rfl, rfl⟩ := hlongest.unique hread.isLongest hsame.symm
  exact hread

end LoxTokens.Lexicon
