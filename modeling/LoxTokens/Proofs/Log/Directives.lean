import LoxTokens.Proofs.Lexicon.Runs
import LoxTokens.Proofs.Log.Thresholds
import Mathlib.Data.List.TakeDrop

/-!
# Reading log filters

A rule that is written without a bracket asks for a scope alone.  Not every such
text is a rule: it has to begin with a character that a rule may begin with, and
what stands for its threshold has to name one.  `IsDirective` are the two forms
that rules are mostly written in, a threshold alone and a scope with a threshold.

The parts of a rule are cut out of its text by offsets that are counted behind its
leading blanks.  `Rule.dropWhile_isBlank` is what makes the usual forms readable:
a text that begins as a rule may has no leading blanks, so the offsets are right.
-/

namespace LoxTokens.Text

/-- Whether two tables have no code point in common. -/
def Ranges.misses (ranges others : Ranges) : Bool :=
  ranges.all fun range => others.all fun other => range.2 < other.1 || other.2 < range.1

theorem Ranges.has_eq_false_of_misses {ranges others : Ranges}
    (hmisses : ranges.misses others = true) {c : Char} (hhas : ranges.has c = true) :
    others.has c = false := by
  rw [← Bool.not_eq_true]
  intro hother
  obtain ⟨range, hrange, hin⟩ := (ranges.has_eq_true_iff c).mp hhas
  obtain ⟨other, hother, hin'⟩ := (others.has_eq_true_iff c).mp hother
  have hapart := List.all_eq_true.mp (List.all_eq_true.mp hmisses range hrange) other hother
  simp only [Bool.or_eq_true, decide_eq_true_eq] at hapart
  omega

/-- A blank is neither a letter nor a number. -/
theorem isAlphanumeric_of_isBlank {c : Char} (hblank : isBlank c = true) :
    isAlphanumeric c = false := by
  have hmisses : [lowLetters, middleLetters, highLetters, numbers].all blanks.misses = true := by
    decide +kernel
  have hmiss (letters : Ranges)
      (hmem : letters ∈ [lowLetters, middleLetters, highLetters, numbers]) :
      letters.has c = false :=
    Ranges.has_eq_false_of_misses (List.all_eq_true.mp hmisses letters hmem) hblank
  simp [isAlphanumeric, isAlphabetic, hmiss]

theorem mem_of_mem_pieces {separator : Char} {text piece : List Char}
    (hpiece : piece ∈ pieces separator text) {c : Char} (hmem : c ∈ piece) : c ∈ text := by
  induction text generalizing piece with
  | nil =>
      rw [List.mem_singleton.mp hpiece] at hmem
      cases hmem
  | cons first text ih =>
      unfold pieces at hpiece
      split at hpiece
      · rcases List.mem_cons.mp hpiece with rfl | hpiece
        · cases hmem
        · exact List.mem_cons_of_mem _ (ih hpiece hmem)
      · split at hpiece
        · rw [List.mem_singleton.mp hpiece, List.mem_singleton] at hmem
          rw [hmem]
          exact List.mem_cons_self
        · next heq =>
            rcases List.mem_cons.mp hpiece with rfl | hpiece
            · rcases List.mem_cons.mp hmem with rfl | hmem
              · exact List.mem_cons_self
              · exact List.mem_cons_of_mem _ (ih (heq ▸ List.mem_cons_self) hmem)
            · exact List.mem_cons_of_mem _ (ih (heq ▸ List.mem_cons_of_mem _ hpiece) hmem)

end LoxTokens.Text

namespace LoxTokens.Log

/-! ## Rules without brackets -/

/-- What is read in two steps is read in each of them. -/
theorem exists_of_bind_eq_ok {α β : Type} {first : Except Misreading α}
    {next : α → Except Misreading β} {result : β} (hread : first >>= next = .ok result) :
    ∃ read, first = .ok read ∧ next read = .ok result := by
  cases first with
  | error misreading => cases hread
  | ok read => exact ⟨read, rfl, hread⟩

namespace Rule

theorem IsPlain.of_withThreshold {rule read : Rule} {text : List Char} {sign : Nat}
    (hread : rule.withThreshold text sign = .ok read) (hplain : rule.IsPlain) : read.IsPlain := by
  obtain ⟨word, -, hread⟩ := exists_of_bind_eq_ok hread
  obtain ⟨threshold, -, hread⟩ := exists_of_bind_eq_ok hread
  cases hread
  exact ⟨hplain.span_eq, hplain.field_eq⟩

/-- The signs that end the first part of a rule. -/
def isSign (c : Char) : Bool := c = '=' || c = '['

theorem isSign_iff {c : Char} : isSign c = true ↔ c = '=' ∨ c = '[' := by
  rw [isSign, Bool.or_eq_true, decide_eq_true_iff, decide_eq_true_iff]

theorem span_isSign {word rest : List Char} (hword : ∀ c ∈ word, isSign c = false)
    (hstop : Text.Stops (!isSign ·) rest) :
    (word ++ rest).span (fun c => c ≠ '=' && c ≠ '[') = (word, rest) := by
  have hsign : (fun c => decide (c ≠ '=') && decide (c ≠ '[')) = (!isSign ·) := by
    funext c
    simp [isSign]
  have hrun : ∀ c ∈ word, (!isSign c) = true := fun c hc => by
    rw [hword c hc]
    rfl
  rw [hsign, List.span_eq_takeWhile_dropWhile, Text.takeWhile_append_of_stops hrun hstop,
    Text.dropWhile_append_of_stops hrun hstop]

/-- A text has no sign, or a first one. -/
theorem exists_first_sign (text : List Char) :
    (∀ c ∈ text, isSign c = false) ∨
      ∃ word sign rest, text = word ++ sign :: rest ∧ (∀ c ∈ word, isSign c = false) ∧
        isSign sign = true := by
  have hword : ∀ c ∈ text.takeWhile (!isSign ·), isSign c = false := fun c hc => by
    simpa using Text.forall_mem_takeWhile text c hc
  have htext := List.takeWhile_append_dropWhile (p := (!isSign ·)) (l := text)
  cases hrest : text.dropWhile (!isSign ·) with
  | nil =>
      rw [hrest, List.append_nil] at htext
      exact .inl (htext ▸ hword)
  | cons sign rest =>
      have hstop : Text.Stops (!isSign ·) (sign :: rest) := hrest ▸ Text.stops_dropWhile text
      refine .inr ⟨text.takeWhile (!isSign ·), sign, rest, ?_, hword, by simpa using hstop⟩
      rw [← hrest, htext]

section Reading

variable {text word rest : List Char}

theorem ofText_of_not_begins (hbegin : (text.dropWhile Text.isBlank).head?.any canBegin = false) :
    ofText text = .error .noRule := by
  simp only [ofText, hbegin]
  rfl

/-- Without a sign a rule is all threshold or all scope. -/
theorem ofText_of_signless (hbegin : (text.dropWhile Text.isBlank).head?.any canBegin = true)
    (hbody : ∀ c ∈ text.dropWhile Text.isBlank, isSign c = false) :
    ofText text =
      .ok ((Threshold.ofText? text).elim { scope := text } fun threshold => { threshold }) := by
  have hspan := span_isSign hbody Text.stops_nil
  rw [List.append_nil] at hspan
  simp only [ofText, hbegin, hspan]
  cases Threshold.ofText? text <;> rfl

theorem ofText_of_equals (hbegin : (text.dropWhile Text.isBlank).head?.any canBegin = true)
    (hbody : text.dropWhile Text.isBlank = word ++ '=' :: rest)
    (hword : ∀ c ∈ word, isSign c = false) :
    ofText text =
      (part text 0 (Text.bytes word)).bind fun scope =>
        withThreshold { scope } text (Text.bytes word) := by
  have hspan := span_isSign hword (Text.stops_cons.mpr rfl : Text.Stops (!isSign ·) ('=' :: rest))
  rw [hbody] at hbegin
  simp only [ofText, hbody, hbegin, hspan]
  rfl

theorem isPlain_of_ofText {rule : Rule} (hread : ofText text = .ok rule) (hbracket : '[' ∉ text) :
    rule.IsPlain := by
  cases hbegin : (text.dropWhile Text.isBlank).head?.any canBegin with
  | false =>
      rw [ofText_of_not_begins hbegin] at hread
      cases hread
  | true =>
      rcases exists_first_sign (text.dropWhile Text.isBlank) with
        hbody | ⟨word, sign, rest, hbody, hword, hsign⟩
      · rw [ofText_of_signless hbegin hbody] at hread
        cases hthreshold : Threshold.ofText? text <;> rw [hthreshold] at hread <;> cases hread <;>
          exact ⟨rfl, rfl⟩
      · have hmem : sign ∈ text :=
          (List.dropWhile_sublist Text.isBlank).subset (by rw [hbody]; simp)
        rcases isSign_iff.mp hsign with rfl | rfl
        · rw [ofText_of_equals hbegin hbody hword] at hread
          obtain ⟨scope, -, hread⟩ := exists_of_bind_eq_ok hread
          exact .of_withThreshold hread ⟨rfl, rfl⟩
        · exact absurd hmem hbracket

end Reading

end Rule

/-! ## The usual forms of rules -/

/-- The usual forms of a rule: a threshold alone, or a scope with a threshold. -/
inductive IsDirective : List Char → Prop where
  | level {word : List Char} {threshold : Threshold}
      (hthreshold : Threshold.ofText? word = some threshold) : IsDirective word
  | within {scope word : List Char} {threshold : Threshold} (hscope : '=' ∉ scope)
      (hthreshold : Threshold.ofText? word = some threshold) : IsDirective (scope ++ '=' :: word)

theorem Level.mem_number? {word : List Char} {number : Nat} (hnumber : number? word = some number)
    {c : Char} (hmem : c ∈ word) : c = '+' ∨ c.isDigit = true := by
  unfold number? at hnumber
  generalize hdigits : (if word.head? = some '+' then word.tail else word) = digits at hnumber
  have hall : ∀ c ∈ digits, c.isDigit = true := by
    rw [← List.all_eq_true]
    by_contra hnot
    rw [if_neg (by simp [hnot])] at hnumber
    cases hnumber
  by_cases hplus : word.head? = some '+'
  · rw [if_pos hplus] at hdigits
    obtain ⟨tail, rfl⟩ := List.head?_eq_some_iff.mp hplus
    rcases List.mem_cons.mp hmem with rfl | hmem
    · exact .inl rfl
    · exact .inr (hall c (hdigits ▸ hmem))
  · rw [if_neg hplus] at hdigits
    exact .inr (hall c (hdigits ▸ hmem))

/-- What stands for a level is a number, or is its name in letters of either
case. -/
theorem Level.number_or_name {word : List Char} {level : Level}
    (hlevel : ofText? word = some level) :
    (∃ number, number? word = some number) ∨ word.map Char.toUpper = level.name.toList := by
  unfold ofText? at hlevel
  split at hlevel
  · next number hnumber => exact .inl ⟨number, hnumber⟩
  · have hname := List.find?_some hlevel
    exact .inr (of_decide_eq_true hname).symm

namespace Threshold

theorem number_or_name {word : List Char} {threshold : Threshold}
    (hthreshold : ofText? word = some threshold) :
    (∃ number, Level.number? word = some number) ∨
      ∃ name ∈ "OFF" :: Level.all.map Level.name, word.map Char.toUpper = name.toList := by
  unfold ofText? at hthreshold
  split at hthreshold
  · next hoff =>
      rcases hoff with hzero | hoff
      · exact .inl ⟨0, hzero⟩
      · exact .inr ⟨"OFF", by simp, hoff⟩
  · obtain ⟨level, hlevel, -⟩ := Option.map_eq_some_iff.mp hthreshold
    rcases Level.number_or_name hlevel with hnumber | hname
    · exact .inl hnumber
    · exact .inr ⟨level.name, by cases level <;> decide, hname⟩

/-- No sign of a rule stands in what names a threshold. -/
theorem isSign_of_mem {word : List Char} {threshold : Threshold}
    (hthreshold : ofText? word = some threshold) {c : Char} (hmem : c ∈ word) :
    Rule.isSign c = false := by
  rw [← Bool.not_eq_true]
  intro hsign
  have hsign : c = '=' ∨ c = '[' := by simpa [Rule.isSign] using hsign
  rcases number_or_name hthreshold with ⟨number, hnumber⟩ | ⟨name, hname, hupper⟩
  · rcases Level.mem_number? hnumber hmem with rfl | hdigit
    · rcases hsign with hsign | hsign <;> cases hsign
    · rcases hsign with rfl | rfl <;> cases hdigit
  · have hin : c.toUpper ∈ name.toList := hupper ▸ List.mem_map_of_mem hmem
    have hnames : ∀ name ∈ "OFF" :: Level.all.map Level.name,
        '=' ∉ name.toList ∧ '[' ∉ name.toList := by decide
    rcases hsign with rfl | rfl
    · exact (hnames name hname).1 hin
    · exact (hnames name hname).2 hin

theorem ne_nil_of_ofText? {word : List Char} {threshold : Threshold}
    (hthreshold : ofText? word = some threshold) : word ≠ [] := by
  rintro rfl
  cases hthreshold

end Threshold

namespace Rule

/-- No rule begins with a blank. -/
theorem isBlank_of_canBegin {c : Char} (hbegin : canBegin c = true) : Text.isBlank c = false := by
  rw [← Bool.not_eq_true]
  intro hblank
  simp only [canBegin, Text.isAlphanumeric_of_isBlank hblank, Bool.or_false, Bool.or_eq_true,
    decide_eq_true_eq] at hbegin
  rcases hbegin with ((rfl | rfl) | rfl) | rfl <;> cases hblank

theorem dropWhile_isBlank {text : List Char} (hbegin : text.head?.any canBegin = true) :
    text.dropWhile Text.isBlank = text := by
  cases text with
  | nil => rfl
  | cons c text => rw [List.dropWhile_cons_of_neg (by simp [isBlank_of_canBegin hbegin])]

/-- A threshold alone. -/
theorem ofText_level {word : List Char} {threshold : Threshold}
    (hthreshold : Threshold.ofText? word = some threshold)
    (hbegin : word.head?.any canBegin = true) : ofText word = .ok { threshold } := by
  have hbody := dropWhile_isBlank hbegin
  rw [ofText_of_signless, hthreshold]
  · rfl
  · rw [hbody, hbegin]
  · rw [hbody]
    exact fun c => Threshold.isSign_of_mem hthreshold

/-- A scope with a threshold. -/
theorem ofText_scoped {scope word : List Char} {threshold : Threshold}
    (hscope : ∀ c ∈ scope, isSign c = false)
    (hthreshold : Threshold.ofText? word = some threshold)
    (hbegin : (scope ++ '=' :: word).head?.any canBegin = true) :
    ofText (scope ++ '=' :: word) = .ok { scope, threshold } := by
  have hbody := dropWhile_isBlank hbegin
  have hfront : part (scope ++ '=' :: word) 0 (Text.bytes scope) = .ok scope := by
    have hslice := Text.slice?_append [] scope ('=' :: word)
    rw [Text.bytes_nil, Nat.zero_add, List.nil_append] at hslice
    rw [part, hslice]
  have hback : part (scope ++ '=' :: word) (Text.bytes scope + 1)
      (Text.bytes (scope ++ '=' :: word)) = .ok word := by
    have hslice := Text.slice?_append (scope ++ ['=']) word []
    have hsign : Text.bytes ['='] = 1 := rfl
    have hbytes : Text.bytes (scope ++ '=' :: word) = Text.bytes scope + 1 + Text.bytes word := by
      rw [← List.singleton_append, Text.bytes_append, Text.bytes_append, hsign, Nat.add_assoc]
    rw [List.append_nil, ← List.append_cons, Text.bytes_append, hsign, ← hbytes] at hslice
    rw [part, hslice]
  have hword : assigned word = .ok threshold := by
    rw [assigned, hthreshold, if_neg]
    simpa using Threshold.ne_nil_of_ofText? hthreshold
  rw [ofText_of_equals (by rw [hbody, hbegin]) hbody hscope, hfront]
  simp only [Except.bind, withThreshold]
  rw [hback]
  simp only [bind, Except.bind, hword]
  rfl

end Rule

/-! ## Lists of rules -/

namespace Filter

/-- What a list of texts is read into is read from its texts. -/
theorem exists_of_mem_mapM {texts : List (List Char)} {filter : Filter}
    (hread : texts.mapM Rule.ofText = .ok filter) {rule : Rule} (hmem : rule ∈ filter) :
    ∃ text ∈ texts, Rule.ofText text = .ok rule := by
  induction texts generalizing filter with
  | nil =>
      cases hread
      cases hmem
  | cons text texts ih =>
      rw [List.mapM_cons] at hread
      obtain ⟨first, hfirst, hread⟩ := exists_of_bind_eq_ok hread
      obtain ⟨others, hothers, hread⟩ := exists_of_bind_eq_ok hread
      cases hread
      rcases List.mem_cons.mp hmem with rfl | hmem
      · exact ⟨text, List.mem_cons_self, hfirst⟩
      · obtain ⟨text, htext, hrule⟩ := ih hothers hmem
        exact ⟨text, List.mem_cons_of_mem _ htext, hrule⟩

theorem exists_mapM_eq_ok {texts : List (List Char)}
    (hread : ∀ text ∈ texts, ∃ rule, Rule.ofText text = .ok rule) :
    ∃ filter, texts.mapM Rule.ofText = .ok filter := by
  induction texts with
  | nil => exact ⟨[], rfl⟩
  | cons text texts ih =>
      obtain ⟨first, hfirst⟩ := hread text List.mem_cons_self
      obtain ⟨others, hothers⟩ := ih fun text htext => hread text (List.mem_cons_of_mem _ htext)
      refine ⟨first :: others, ?_⟩
      rw [List.mapM_cons, hfirst, hothers]
      rfl

theorem isPlain_of_ofText {text : List Char} {filter : Filter} (hread : ofText text = .ok filter)
    (hbracket : '[' ∉ text) : ∀ rule ∈ filter, rule.IsPlain := by
  intro rule hrule
  obtain ⟨piece, hpiece, hread⟩ := exists_of_mem_mapM hread hrule
  exact Rule.isPlain_of_ofText hread fun hmem =>
    hbracket (Text.mem_of_mem_pieces (List.mem_filter.mp hpiece).1 hmem)

end Filter

/-- Between its commas a text has rules in one of the usual forms or nothing. -/
def IsDirectives (text : List Char) : Prop :=
  ∀ piece ∈ Text.pieces ',' text, piece ≠ [] → IsDirective piece

/-- All the rules of a text begin as a rule may. -/
def BeginsRules (text : List Char) : Prop :=
  ∀ piece ∈ Text.pieces ',' text, piece ≠ [] → piece.head?.any Rule.canBegin = true

theorem Filter.exists_ofText_eq_ok {text : List Char} (hdirectives : IsDirectives text)
    (hbegin : BeginsRules text) (hbracket : '[' ∉ text) :
    ∃ filter, ofText text = .ok filter := by
  refine exists_mapM_eq_ok fun piece hpiece => ?_
  obtain ⟨hpiece, hne⟩ := List.mem_filter.mp hpiece
  have hne : piece ≠ [] := by simpa using hne
  have hbegins := hbegin piece hpiece hne
  cases hdirectives piece hpiece hne with
  | level hthreshold => exact ⟨_, Rule.ofText_level hthreshold hbegins⟩
  | @within scope word threshold hequals hthreshold =>
      refine ⟨_, Rule.ofText_scoped (fun c hc => ?_) hthreshold hbegins⟩
      have hmem : c ∈ text := Text.mem_of_mem_pieces hpiece (List.mem_append_left _ hc)
      have hequals : c ≠ '=' := fun heq => hequals (heq ▸ hc)
      have hbracket : c ≠ '[' := fun heq => hbracket (heq ▸ hmem)
      simp [Rule.isSign, hequals, hbracket]

/-! ## The filter of a run -/

/-- A log filter that breaks a run off. -/
def BreaksOff (logFilter : Option String) : Prop :=
  ∃ text ∈ logFilter, Filter.ofText text.toList = .error .cutCharacter

theorem filterFor?_eq_none_iff (logFilter : Option String) (level : Level) :
    filterFor? logFilter level = none ↔ BreaksOff logFilter := by
  unfold filterFor? BreaksOff
  cases logFilter with
  | none => simp
  | some text =>
      cases hread : Filter.ofText text.toList with
      | ok filter => simp [hread]
      | error misreading => cases misreading <;> simp [hread]

/-- A log filter, if one is given, without brackets. -/
def IsBracketless (logFilter : Option String) : Prop := ∀ text ∈ logFilter, '[' ∉ text.toList

theorem isPlain_of_filterFor? {logFilter : Option String} (hbracket : IsBracketless logFilter)
    {level : Level} {filter : Filter}
    (hfilter : filterFor? logFilter level = some filter) : ∀ rule ∈ filter, rule.IsPlain := by
  unfold filterFor? at hfilter
  cases logFilter with
  | none =>
      cases hfilter
      exact fun rule => Filter.isPlain_of_mem_ofLevel
  | some text =>
      cases hread : Filter.ofText text.toList with
      | ok read =>
          simp only [Option.map_some, hread, Option.some.injEq] at hfilter
          exact hfilter ▸ Filter.isPlain_of_ofText hread (hbracket text rfl)
      | error misreading =>
          cases misreading with
          | noRule =>
              simp only [Option.map_some, hread, Option.some.injEq] at hfilter
              exact hfilter ▸ fun rule => Filter.isPlain_of_mem_ofLevel
          | cutCharacter => simp [hread] at hfilter

theorem ofText_trace : Filter.ofText "trace".toList = .ok (.ofLevel .trace) := rfl

theorem filterFor?_trace {level : Level} :
    filterFor? (some "trace") level = some (.ofLevel .trace) := by
  simp only [filterFor?, Option.map_some, ofText_trace]

end LoxTokens.Log
