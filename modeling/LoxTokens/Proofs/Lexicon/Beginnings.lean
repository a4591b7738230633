import LoxTokens.Proofs.Lexicon.Languages
import LoxTokens.Proofs.Lexicon.Runs

/-!
# What the first character tells

Every lexeme that is recognised by itself goes on in the way that its first
character allows.  `Start.Admits` says which characters stand for each way to
begin, and `Start.GoesOn` what may stand behind them; `Spells.goesOn` is that
the languages contain nothing else.  Since the ways to go on are told apart by
what is written, so is the meaning of a lexeme.
-/

namespace LoxTokens

open Text Lexicon

namespace Start

/-! ## Characters -/

theorem isDigit_iff {c : Char} : c.isDigit = true ↔ IsDigit c := by
  simp [Char.isDigit, Char.le_def, IsDigit]

theorem isLetter_iff {c : Char} : isLetter c = true ↔ IsLetter c := by
  rw [isLetter]
  delta Char.isAlpha Char.isUpper Char.isLower
  simp [IsLetter, Char.le_def, or_assoc]

theorem isDigit_eq_false_of_isLetter {c : Char} (hletter : isLetter c = true) :
    c.isDigit = false := by
  rw [Bool.eq_false_iff, ne_eq, isDigit_iff]
  rw [isLetter_iff] at hletter
  rintro ⟨_, hdigit⟩
  rcases hletter with ⟨hletter, _⟩ | ⟨hletter, _⟩ | rfl
  · exact absurd (Char.le_trans hletter hdigit) (by decide)
  · exact absurd (Char.le_trans hletter hdigit) (by decide)
  · exact absurd hdigit (by decide)

/-! ## Ways to begin -/

/-- The characters with which each kind of lexeme begins. -/
def Admits : Start → Char → Prop
  | .punctuation kind, c => (c, kind) ∈ Lexicon.punctuation
  | .operator alone extended, c => (c, alone, extended) ∈ operators
  | .slash, c => c = '/'
  | .blank, c => c ∈ [' ', '\t', '\r']
  | .lineFeed, c => c = '\n'
  | .quote, c => c = '"'
  | .digit, c => c.isDigit = true
  | .letter, c => isLetter c = true
  | .foreign, _ => True

theorem admits_ofChar (c : Char) : (ofChar c).Admits c := by
  unfold ofChar
  split
  case h_21 =>
    by_cases hdigit : c.isDigit = true
    · rwa [if_pos hdigit]
    · by_cases hletter : isLetter c = true
      · rwa [if_neg hdigit, if_pos hletter]
      · rw [if_neg hdigit, if_neg hletter]
        trivial
  all_goals simp [Admits, Lexicon.punctuation, operators]

theorem admits_of_ofChar {start : Start} {c : Char} (hc : ofChar c = start) : start.Admits c :=
  hc ▸ admits_ofChar c

theorem ofChar_eq_of_admits (start : Start) {c : Char} (hstart : start ≠ .foreign)
    (hadmits : start.Admits c) : ofChar c = start := by
  cases start with
  | punctuation kind =>
      simp only [Admits, Lexicon.punctuation, List.mem_cons, Prod.mk.injEq, List.not_mem_nil,
        or_false] at hadmits
      rcases hadmits with ⟨rfl, rfl⟩ | ⟨rfl, rfl⟩ | ⟨rfl, rfl⟩ | ⟨rfl, rfl⟩ | ⟨rfl, rfl⟩ |
        ⟨rfl, rfl⟩ | ⟨rfl, rfl⟩ | ⟨rfl, rfl⟩ | ⟨rfl, rfl⟩ | ⟨rfl, rfl⟩ <;> rfl
  | operator alone extended =>
      simp only [Admits, operators, List.mem_cons, Prod.mk.injEq, List.not_mem_nil,
        or_false] at hadmits
      rcases hadmits with ⟨rfl, rfl, rfl⟩ | ⟨rfl, rfl, rfl⟩ | ⟨rfl, rfl, rfl⟩ | ⟨rfl, rfl, rfl⟩ <;>
        rfl
  | blank =>
      simp only [Admits, List.mem_cons, List.not_mem_nil, or_false] at hadmits
      rcases hadmits with rfl | rfl | rfl <;> rfl
  | slash | lineFeed | quote => subst hadmits; rfl
  | digit =>
      rw [Admits] at hadmits
      unfold ofChar
      split <;> simp_all
  | letter =>
      rw [Admits] at hadmits
      have hdigit := isDigit_eq_false_of_isLetter hadmits
      unfold ofChar
      split <;> simp_all [isLetter]
  | foreign => exact absurd rfl hstart

/-! ## Ways to go on -/

/-- What may stand behind the whole digits of a number. -/
def IsFraction (tail : List Char) : Prop :=
  tail = [] ∨
    ∃ fraction, fraction ≠ [] ∧ (∀ c ∈ fraction, c.isDigit = true) ∧ tail = '.' :: fraction

theorem IsFraction.stops {tail : List Char} (htail : IsFraction tail) :
    Stops Char.isDigit tail := by
  obtain rfl | ⟨fraction, _, _, rfl⟩ := htail
  · exact stops_nil
  · exact stops_cons.mpr rfl

/-- What stands behind the first character of a lexeme that is recognised by
itself, and what the lexeme then means. -/
def GoesOn (first : Char) : Start → List Char → Sense → Prop
  | .punctuation kind, others, sense => others = [] ∧ sense = .token kind none
  | .operator alone extended, others, sense =>
    (others = [] ∧ sense = .token alone none) ∨ (others = ['='] ∧ sense = .token extended none)
  | .slash, others, sense =>
    (others = [] ∧ sense = .token .slash none) ∨
      ∃ body, '\n' ∉ body ∧ others = '/' :: body ∧ sense = .trivia
  | .blank, others, sense => others = [] ∧ sense = .trivia
  | .lineFeed, others, sense => others = [] ∧ sense = .trivia
  | .quote, others, sense =>
    ∃ body, '"' ∉ body ∧ others = body ++ ['"'] ∧
      sense = .token .string (some (.string (.ofList body)))
  | .digit, others, sense =>
    ∃ digits tail, (∀ c ∈ digits, c.isDigit) ∧ others = digits ++ tail ∧ IsFraction tail ∧
      sense = numberSense (first :: digits) tail.tail
  | .letter, others, sense =>
    (∀ c ∈ others, isWordChar c) ∧
      sense = .token (.ofWord (.ofList (first :: others))) none
  | .foreign, _, _ => False

/-- How a lexeme is written decides what it means. -/
theorem GoesOn.sense_eq {start : Start} {first : Char} {others : List Char} {sense other : Sense}
    (hsense : start.GoesOn first others sense) (hother : start.GoesOn first others other) :
    sense = other := by
  cases start with
  | punctuation kind => rw [hsense.2, hother.2]
  | operator alone extended =>
      rcases hsense with ⟨rfl, rfl⟩ | ⟨rfl, rfl⟩ <;>
        rcases hother with ⟨hothers, rfl⟩ | ⟨hothers, rfl⟩ <;> first | rfl | cases hothers
  | slash =>
      rcases hsense with ⟨rfl, rfl⟩ | ⟨body, _, rfl, rfl⟩ <;>
        rcases hother with ⟨hothers, rfl⟩ | ⟨body, _, hothers, rfl⟩ <;>
          first | rfl | cases hothers
  | blank => rw [hsense.2, hother.2]
  | lineFeed => rw [hsense.2, hother.2]
  | quote =>
      obtain ⟨body, _, rfl, rfl⟩ := hsense
      obtain ⟨body', _, hothers, rfl⟩ := hother
      rw [List.append_cancel_right hothers]
  | digit =>
      obtain ⟨digits, tail, hdigits, rfl, htail, rfl⟩ := hsense
      obtain ⟨digits', tail', hdigits', hothers, htail', rfl⟩ := hother
      obtain ⟨rfl, rfl⟩ := eq_of_stops hdigits' htail'.stops hdigits htail.stops hothers
      rfl
  | letter => rw [hsense.2, hother.2]
  | foreign => exact hsense.elim

end Start

namespace Lexicon

open Start

/-! ## Words -/

theorem ofWord_spelling (word : Keyword) : Token.Kind.ofWord word.spelling = .keyword word := by
  unfold Token.Kind.ofWord
  rw [Keyword.ofSpelling?_spelling]
  rfl

theorem ofWord_of_forall_ne {text : List Char}
    (hfree : ∀ word : Keyword, word.spelling.toList ≠ text) :
    Token.Kind.ofWord (.ofList text) = .identifier := by
  unfold Token.Kind.ofWord
  cases hword : Keyword.ofSpelling? (.ofList text) with
  | none => rfl
  | some word =>
      rw [Keyword.ofSpelling?_eq_some_iff] at hword
      exact absurd (by rw [hword, String.toList_ofList]) (hfree word)

theorem isWordChar_iff {c : Char} : isWordChar c = true ↔ IsLetter c ∨ IsDigit c := by
  simp only [isWordChar, Bool.or_eq_true, isLetter_iff, isDigit_iff]

theorem isWord_spelling (word : Keyword) : IsWord word.spelling.toList := by
  have hword : ∃ first others, word.spelling.toList = first :: others ∧
      isLetter first = true ∧ others.all isWordChar = true := by
    cases word <;> exact ⟨_, _, rfl, by decide, by decide⟩
  obtain ⟨first, others, htext, hfirst, hothers⟩ := hword
  rw [List.all_eq_true] at hothers
  exact ⟨first, others, htext, isLetter_iff.mp hfirst,
    fun c hc => isWordChar_iff.mp (hothers c hc)⟩

theorem IsWord.goesOn {text : List Char} (hword : IsWord text) :
    ∃ first others, text = first :: others ∧
      (ofChar first).GoesOn first others (.token (.ofWord (.ofList text)) none) := by
  obtain ⟨first, others, rfl, hfirst, hothers⟩ := hword
  refine ⟨first, others, rfl, ?_⟩
  rw [ofChar_eq_of_admits .letter (by simp) (isLetter_iff.mpr hfirst)]
  exact ⟨fun c hc => isWordChar_iff.mpr (hothers c hc), rfl⟩

theorem IsDigits.goesOn {whole tail : List Char} (hwhole : IsDigits whole)
    (htail : tail = [] ∨ ∃ fraction, IsDigits fraction ∧ tail = '.' :: fraction) :
    ∃ first others, whole ++ tail = first :: others ∧
      (ofChar first).GoesOn first others (numberSense whole tail.tail) := by
  obtain ⟨hne, hdigits⟩ := hwhole
  obtain ⟨first, digits, rfl⟩ := List.exists_cons_of_ne_nil hne
  have hfirst : first.isDigit = true := isDigit_iff.mpr (hdigits first (by simp))
  refine ⟨first, digits ++ tail, rfl, ?_⟩
  rw [ofChar_eq_of_admits .digit (by simp) hfirst]
  refine ⟨digits, tail, fun c hc => isDigit_iff.mpr (hdigits c (by simp [hc])), rfl, ?_, rfl⟩
  refine htail.imp_right ?_
  rintro ⟨fraction, hfraction, rfl⟩
  exact ⟨fraction, hfraction.1, fun c hc => isDigit_iff.mpr (hfraction.2 c hc), rfl⟩

/-! ## Lexemes go on as they begin -/

theorem Spells.goesOn {text : List Char} {sense : Sense} (hspells : Spells text sense) :
    ∃ first others, text = first :: others ∧ (ofChar first).GoesOn first others sense := by
  cases hspells with
  | @punctuation c kind hmem =>
      refine ⟨c, [], rfl, ?_⟩
      rw [ofChar_eq_of_admits (.punctuation kind) (by simp) hmem]
      exact ⟨rfl, rfl⟩
  | @operator c alone extended hmem =>
      refine ⟨c, [], rfl, ?_⟩
      rw [ofChar_eq_of_admits (.operator alone extended) (by simp) hmem]
      exact Or.inl ⟨rfl, rfl⟩
  | @extendedOperator c alone extended hmem =>
      refine ⟨c, ['='], rfl, ?_⟩
      rw [ofChar_eq_of_admits (.operator alone extended) (by simp) hmem]
      exact Or.inr ⟨rfl, rfl⟩
  | slash => exact ⟨'/', [], rfl, Or.inl ⟨rfl, rfl⟩⟩
  | @comment body hbody => exact ⟨'/', '/' :: body, rfl, Or.inr ⟨body, hbody, rfl, rfl⟩⟩
  | @blank c hmem =>
      refine ⟨c, [], rfl, ?_⟩
      rw [ofChar_eq_of_admits .blank (by simp) hmem]
      exact ⟨rfl, rfl⟩
  | lineFeed => exact ⟨'\n', [], rfl, rfl, rfl⟩
  | @string body hbody => exact ⟨'"', body ++ ['"'], rfl, body, hbody, rfl, rfl⟩
  | @integer _ hwhole =>
      simpa using hwhole.goesOn (Or.inl rfl)
  | @decimal whole fraction hwhole hfraction =>
      exact hwhole.goesOn (Or.inr ⟨fraction, hfraction, rfl⟩)
  | keyword word =>
      have hword := (isWord_spelling word).goesOn
      rwa [String.ofList_toList, ofWord_spelling] at hword
  | @name text hword hfree =>
      have hgoesOn := hword.goesOn
      rwa [ofWord_of_forall_ne hfree] at hgoesOn

end Lexicon

end LoxTokens
