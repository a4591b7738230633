import LoxTokens.Proofs.Lexicon.Cut

/-!
# Changing what stands behind a piece

Whether a piece ends where it does depends on at most two characters behind it,
and on whether anything is behind it at all.  So the rest of a text may be
replaced by another one that offers the piece nothing new to go on with:
`MayReplace` is this condition, and the cut of a text survives when it holds
behind every piece.
-/

namespace LoxTokens.Lexicon

open Text Start Piece

/-- Another rest may take the place of the one behind a piece.  Its first
character is one that the piece has not gone on with before, or one that ends
lexemes: a line feed ends all but strings, other blanks all but comments. -/
structure MayReplace (piece : Piece) (rest other : List Char) : Prop where
  head : ∀ c ∈ other.head?,
    c ∈ rest.head? ∨ c = '\n' ∨ (c ∈ [' ', '\t', '\r'] ∧ piece.sense ≠ .trivia)
  fraction : StartsFraction other → StartsFraction rest
  openString : piece.sense = .fault .openString → other = []

variable {piece : Piece} {rest other : List Char}

theorem forall_mem_blanks {belongs : Char → Bool} (hspace : belongs ' ' = false)
    (htab : belongs '\t' = false) (hreturn : belongs '\r' = false) :
    ∀ c ∈ [' ', '\t', '\r'], belongs c = false := by
  intro c hc
  simp only [List.mem_cons, List.not_mem_nil, or_false] at hc
  rcases hc with rfl | rfl | rfl
  · exact hspace
  · exact htab
  · exact hreturn

/-- A run that stops before a rest stops before the one that takes its place,
as long as the blanks in question end it. -/
theorem MayReplace.stops (hreplace : MayReplace piece rest other) {belongs : Char → Bool}
    (hstop : Stops belongs rest) (hlineFeed : belongs '\n' = false)
    (hblank : piece.sense ≠ .trivia → ∀ c ∈ [' ', '\t', '\r'], belongs c = false) :
    Stops belongs other := by
  intro c hc
  rcases hreplace.head c hc with hold | rfl | ⟨hmem, hsense⟩
  · exact hstop c hold
  · exact hlineFeed
  · exact hblank hsense c hmem

theorem MayReplace.head?_ne (hreplace : MayReplace piece rest other) {c : Char}
    (hhead : rest.head? ≠ some c) (hc : c ∉ ['\n', ' ', '\t', '\r']) : other.head? ≠ some c := by
  intro hother
  rcases hreplace.head c hother with hold | rfl | ⟨hmem, _⟩
  · exact hhead hold
  · exact hc (by simp)
  · exact hc (List.mem_cons_of_mem _ hmem)

/-- A piece ends where it did before. -/
theorem Reads.replace (hread : Reads piece rest) (hreplace : MayReplace piece rest other) :
    Reads piece other := by
  cases hread with
  | punctuation hc => exact .punctuation hc
  | operator hc hrest => exact .operator hc (hreplace.head?_ne hrest (by decide))
  | extendedOperator hc => exact .extendedOperator hc
  | slash hrest => exact .slash (hreplace.head?_ne hrest (by decide))
  | comment hbody hrest =>
      exact .comment hbody (hreplace.stops hrest rfl fun hsense => absurd rfl hsense)
  | blank hc => exact .blank hc
  | lineFeed => exact .lineFeed
  | string hbody => exact .string hbody
  | openString hbody =>
      obtain rfl := hreplace.openString rfl
      exact .openString hbody
  | integer hfirst hwhole hrest hnone =>
      exact .integer hfirst hwhole (hreplace.stops hrest rfl fun _ => forall_mem_blanks rfl rfl rfl)
        fun hfraction => hnone (hreplace.fraction hfraction)
  | decimal hfirst hwhole hne hfraction hrest =>
      exact .decimal hfirst hwhole hne hfraction
        (hreplace.stops hrest rfl fun _ => forall_mem_blanks rfl rfl rfl)
  | word hfirst hothers hrest =>
      exact .word hfirst hothers (hreplace.stops hrest rfl fun _ => forall_mem_blanks rfl rfl rfl)
  | foreign hc => exact .foreign hc

/-! ## Less of the same rest -/

theorem StartsFraction.of_isPrefix (hbegins : other <+: rest) (hfraction : StartsFraction other) :
    StartsFraction rest := by
  obtain ⟨behind, rfl⟩ := hbegins
  obtain ⟨hpoint, hdigit⟩ := hfraction
  obtain ⟨others, rfl⟩ := List.head?_eq_some_iff.mp hpoint
  cases others with
  | nil => simp at hdigit
  | cons d others => exact ⟨rfl, hdigit⟩

theorem mayReplace_of_isPrefix (hbegins : other <+: rest)
    (hopen : piece.sense = .fault .openString → rest = []) : MayReplace piece rest other where
  head := by
    intro c hc
    obtain ⟨behind, rfl⟩ := hbegins
    exact Or.inl (by simp [Option.mem_def.mp hc])
  fraction := .of_isPrefix hbegins
  openString := by
    intro hsense
    rw [hopen hsense, List.prefix_nil] at hbegins
    exact hbegins

/-! ## Another rest from some point on -/

theorem StartsFraction.of_append {behind other : List Char}
    (hother : ∀ c ∈ other.head?, c ≠ '.' ∧ c.isDigit = false)
    (hfraction : StartsFraction (behind ++ other)) : StartsFraction behind := by
  obtain ⟨hpoint, hdigit⟩ := hfraction
  match behind with
  | [] => exact absurd rfl (hother '.' hpoint).1
  | [_] =>
      obtain ⟨c, hc, hin⟩ := (Option.any_eq_true _ _).mp hdigit
      rw [(hother c hc).2] at hin
      cases hin
  | _ :: _ :: _ => exact ⟨hpoint, hdigit⟩

/-- Two rests that go on in the same way up to some point may take each other's
place, if what ends lexemes comes from that point on. -/
theorem mayReplace_behind (common rest : List Char) {other : List Char}
    (hclosed : piece.sense ≠ .fault .openString)
    (hends : ∀ c ∈ other.head?, c = '\n' ∨ (c ∈ [' ', '\t', '\r'] ∧ piece.sense ≠ .trivia)) :
    MayReplace piece (common ++ rest) (common ++ other) where
  head := by
    intro c hc
    cases common with
    | nil => exact Or.inr (hends c hc)
    | cons d common => exact Or.inl hc
  fraction := by
    intro hfraction
    have hother : ∀ c ∈ other.head?, c ≠ '.' ∧ c.isDigit = false := by
      intro c hc
      rcases hends c hc with rfl | ⟨hblank, _⟩
      · decide
      · simp only [List.mem_cons, List.not_mem_nil, or_false] at hblank
        rcases hblank with rfl | rfl | rfl <;> decide
    exact .of_isPrefix (List.prefix_append common rest) (hfraction.of_append hother)
  openString := fun hopen => absurd hopen hclosed

/-- Only at the end of a text does a string stay open. -/
theorem Reads.rest_eq_nil (hread : Reads piece rest)
    (hopen : piece.sense = .fault .openString) : rest = [] := by
  cases hread <;> first | rfl | cases hopen

/-! ## Whole cuts -/

/-- **Pieces stay as they are in front of another rest** that may take the place
of the old one behind each of them. -/
theorem MaximalMunch.replace {text : List Char} {front old back : List Piece}
    (hcut : MaximalMunch text (front ++ old)) (hback : MaximalMunch other back)
    (hreplace : ∀ piece ∈ front, ∀ behind, Reads piece (behind ++ flatten old) →
      MayReplace piece (behind ++ flatten old) (behind ++ other)) :
    MaximalMunch (flatten front ++ other) (front ++ back) := by
  induction front generalizing text with
  | nil => exact hback
  | cons piece front ih =>
      rw [List.cons_append] at hcut
      obtain ⟨rest, rfl, hlongest, hcut⟩ := hcut.exists_rest
      obtain ⟨hpiece, hfront⟩ := List.forall_mem_cons.mp hreplace
      -- the old rest of the piece is what the other pieces make up
      have hrest : rest = flatten front ++ flatten old := by
        rw [← flatten_append, hcut.flatten_eq]
      subst hrest
      have hread := isLongest_iff_reads.mp hlongest
      rw [flatten_cons, List.append_assoc]
      exact .cons_of_reads (hread.replace (hpiece _ hread)) (ih hcut hfront)

/-- The text up to some piece is cut as it is in the whole text. -/
theorem MaximalMunch.front {text : List Char} {front back : List Piece}
    (hcut : MaximalMunch text (front ++ back)) : MaximalMunch (flatten front) front := by
  have hfront := hcut.replace .nil fun piece _ behind hread =>
    mayReplace_of_isPrefix ((List.prefix_append_right_inj behind).mpr List.nil_prefix)
      hread.rest_eq_nil
  simpa using hfront

/-- In front of anything no string is left open. -/
theorem MaximalMunch.sense_ne_openString {text : List Char} {front back : List Piece}
    (hcut : MaximalMunch text (front ++ back)) (hne : flatten back ≠ []) :
    ∀ piece ∈ front, piece.sense ≠ .fault .openString := by
  intro piece hmem hopen
  obtain ⟨upper, lower, rfl⟩ := List.append_of_mem hmem
  rw [List.append_assoc, List.cons_append] at hcut
  obtain ⟨rest, _, hlongest, hlower⟩ := hcut.of_append.exists_rest
  have hnil : rest = [] := (isLongest_iff_reads.mp hlongest).rest_eq_nil hopen
  have hflat := hlower.flatten_eq
  rw [flatten_append, hnil, List.append_eq_nil_iff] at hflat
  exact hne hflat.2

/-- The pieces between two others are cut as they are in the whole text. -/
theorem MaximalMunch.middle {text : List Char} {before part after : List Piece}
    (hcut : MaximalMunch text (before ++ part ++ after)) : MaximalMunch (flatten part) part :=
  hcut.front.of_append

end LoxTokens.Lexicon
